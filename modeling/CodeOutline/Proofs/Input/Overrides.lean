/-
  CodeOutline/Proofs/Input/Overrides.lean
  =======================================
  **Explicit values against the environment.**

  Settings are put together from what the environment states and from explicit values, which come
  last and replace what was stated (`ofEnvironment_of_readable`).  So of two environments that
  differ in the variable of one setting, an explicit value for that setting makes one result
  (`ofEnvironment_congr`).  It does not, where the variable is to state a decision and states none:
  such a variable is refused before anything is put together (`ofEnvironment_of_unreadable`).
-/
import CodeOutline.Input.Settings

namespace CodeOutline

/-- A setting that the environment may state and an explicit value may replace. -/
inductive Setting where
  | enabled
  | placeholder
  | workers
  | retainUnclaimed
deriving DecidableEq, Repr

namespace Setting

/-- The name of its variable, without the stem that all variables have. -/
def variableName : Setting → String
  | .enabled => "ENABLED"
  | .placeholder => "PLACEHOLDER"
  | .workers => "WORKERS"
  | .retainUnclaimed => "RETAIN_UNCLAIMED"

/-- The name of its field. -/
def field : Setting → String
  | .enabled => "enabled"
  | .placeholder => "placeholder"
  | .workers => "workers"
  | .retainUnclaimed => "retain_unclaimed"

/-- Whether its variable is read as a decision, and not left to the reading of the fields. -/
def isDecision : Setting → Bool
  | .enabled => true
  | .placeholder => false
  | .workers => false
  | .retainUnclaimed => true

/-- The value that an environment states for a setting. -/
def stated? (env : Environment) (setting : Setting) : Option Value :=
  (settingVariable env setting.variableName).bind fun word =>
    if setting.isDecision then (variableDecision? word).map .bool else some (.text word)

/-- The fault of a variable that is to state a decision and states none. -/
def fault? (env : Environment) (setting : Setting) : Option SettingsFault :=
  (settingVariable env setting.variableName).bind fun word =>
    if setting.isDecision && (variableDecision? word).isNone then
      some (.notDecision (variableStem ++ setting.variableName) word)
    else none

/-- The field that an environment gives a setting, if it states anything. -/
def entry (env : Environment) (setting : Setting) : List (String × Value) :=
  ((setting.stated? env).map fun v => (setting.field, v)).toList

end Setting

open Setting

/-- All fields that an environment gives. -/
def statedFields (env : Environment) : List (String × Value) :=
  entry env .enabled ++ entry env .placeholder ++ entry env .workers ++ entry env .retainUnclaimed

/-- The first variable that is to state a decision and states none. -/
def unreadable? (env : Environment) : Option SettingsFault :=
  (fault? env .enabled).or (fault? env .retainUnclaimed)

/-- The explicit values that are not null. -/
def explicitFields (overrides : List (String × Value)) : List (String × Value) :=
  overrides.filter fun (_, v) => match v with
    | .null => false
    | _ => true

/-- Both environments state the same for all settings but one. -/
def AgreeApart (setting : Setting) (env other : Environment) : Prop :=
  ∀ name, name ≠ setting.variableName → settingVariable env name = settingVariable other name

/-- An explicit value for the setting makes its variable irrelevant. -/
def OverridesWin (setting : Setting) : Prop :=
  ∀ env other overrides v, AgreeApart setting env other →
    givenAs overrides setting.field = some v → v ≠ .null →
      Settings.ofEnvironment env overrides = Settings.ofEnvironment other overrides

variable {setting : Setting} {env other : Environment} {overrides : List (String × Value)}

/-! ### Reading the environment -/

theorem decisionFromVariable_of_fault {fault : SettingsFault}
    (hdecision : setting.isDecision = true) (hfault : setting.fault? env = some fault) :
    decisionFromVariable env setting.variableName setting.field = .error fault := by
  unfold fault? at hfault
  unfold decisionFromVariable
  cases hword : settingVariable env setting.variableName with
  | none => simp [hword] at hfault
  | some word =>
    cases hread : variableDecision? word with
    | some b => simp [hword, hread] at hfault
    | none => simpa [hword, hread, hdecision] using hfault

theorem decisionFromVariable_of_readable (hdecision : setting.isDecision = true)
    (hfault : setting.fault? env = none) :
    decisionFromVariable env setting.variableName setting.field = .ok (entry env setting) := by
  unfold fault? at hfault
  unfold decisionFromVariable entry stated?
  cases hword : settingVariable env setting.variableName with
  | none => rfl
  | some word =>
    cases hread : variableDecision? word with
    | some b => simp [hread, hdecision]
    | none => simp [hword, hread, hdecision] at hfault

theorem textFromVariable_eq (htext : setting.isDecision = false) :
    textFromVariable env setting.variableName setting.field = entry env setting := by
  unfold textFromVariable entry stated?
  cases settingVariable env setting.variableName <;> simp [htext]

/-- A variable that states no decision is refused, whatever is given explicitly. -/
theorem ofEnvironment_of_unreadable {fault : SettingsFault}
    (hfault : unreadable? env = some fault) :
    Settings.ofEnvironment env overrides = .error fault := by
  unfold unreadable? at hfault
  unfold Settings.ofEnvironment
  cases henabled : fault? env .enabled with
  | some first =>
    obtain rfl : first = fault := by simpa [henabled] using hfault
    have hread := decisionFromVariable_of_fault rfl henabled
    simp only [variableName, field] at hread
    rw [hread]
    rfl
  | none =>
    have hretain : fault? env .retainUnclaimed = some fault := by simpa [henabled] using hfault
    have hread := decisionFromVariable_of_readable rfl henabled
    have hrefused := decisionFromVariable_of_fault rfl hretain
    simp only [variableName, field] at hread hrefused
    rw [hread, hrefused]
    rfl

/-- Otherwise the explicit values are put behind what the environment states. -/
theorem ofEnvironment_of_readable (hreadable : unreadable? env = none) :
    Settings.ofEnvironment env overrides =
      (Settings.ofFields (statedFields env ++ explicitFields overrides)).mapError .refused := by
  obtain ⟨henabled, hretain⟩ := Option.or_eq_none_iff.mp hreadable
  have hfirst := decisionFromVariable_of_readable rfl henabled
  have hlast := decisionFromVariable_of_readable rfl hretain
  have hplaceholder := @textFromVariable_eq .placeholder env rfl
  have hworkers := @textFromVariable_eq .workers env rfl
  simp only [variableName, field] at hfirst hlast hplaceholder hworkers
  rw [Settings.ofEnvironment, hfirst, hlast, hplaceholder, hworkers]
  rfl

/-! ### Fields behind fields -/

theorem givenAs_append (first later : List (String × Value)) (name : String) :
    givenAs (first ++ later) name = (givenAs later name).or (givenAs first name) := by
  unfold givenAs
  rw [List.reverse_append, List.find?_append]
  cases later.reverse.find? (·.1 == name) <;> rfl

theorem givenAs_filter {keep : String × Value → Bool} {fields : List (String × Value)}
    {name : String} {v : Value} (hgiven : givenAs fields name = some v)
    (hkeep : ∀ name, keep (name, v) = true) : givenAs (fields.filter keep) name = some v := by
  obtain ⟨entry, hfind, rfl⟩ := Option.map_eq_some_iff.mp hgiven
  obtain ⟨hname, before, after, hfields, hbefore⟩ := List.find?_eq_some_iff_append.mp hfind
  have hfound : (fields.filter keep).reverse.find? (·.1 == name) = some entry := by
    rw [← List.filter_reverse, List.find?_filter, List.find?_eq_some_iff_append]
    refine ⟨by simp [hname, hkeep entry.1], before, after, hfields, ?_⟩
    intro earlier hearlier
    have hother : (earlier.1 == name) = false := by simpa using hbefore earlier hearlier
    simp [hother]
  rw [givenAs, hfound]
  rfl

theorem givenAs_explicitFields {name : String} {v : Value}
    (hgiven : givenAs overrides name = some v) (hv : v ≠ .null) :
    givenAs (explicitFields overrides) name = some v := by
  apply givenAs_filter hgiven
  intro name
  cases v <;> simp at hv ⊢

theorem givenAs_entry (env : Environment) (setting : Setting) (name : String) :
    givenAs (entry env setting) name =
      if setting.field = name then setting.stated? env else none := by
  unfold entry
  cases setting.stated? env with
  | none => simp [givenAs]
  | some v => by_cases hname : setting.field = name <;> simp [givenAs, hname]

theorem givenAs_statedFields (env : Environment) (setting : Setting) :
    givenAs (statedFields env) setting.field = setting.stated? env := by
  unfold statedFields
  simp only [givenAs_append, givenAs_entry]
  cases setting <;> simp [field]

theorem fieldOr_congr {α : Type} {default : α} {fields others : List (String × Value)}
    {name : String} {read : Value → Except FieldFault α}
    (hsame : givenAs fields name = givenAs others name) :
    fieldOr default fields name read = fieldOr default others name read := by
  unfold fieldOr
  rw [hsame]

/-- Settings depend on the last value under each of their fields. -/
theorem ofFields_congr {fields others : List (String × Value)}
    (hsame : ∀ setting : Setting, givenAs fields setting.field = givenAs others setting.field) :
    Settings.ofFields fields = Settings.ofFields others := by
  have henabled : givenAs fields "enabled" = givenAs others "enabled" := hsame .enabled
  have hplaceholder : givenAs fields "placeholder" = givenAs others "placeholder" :=
    hsame .placeholder
  have hworkers : givenAs fields "workers" = givenAs others "workers" := hsame .workers
  have hretain : givenAs fields "retain_unclaimed" = givenAs others "retain_unclaimed" :=
    hsame .retainUnclaimed
  unfold Settings.ofFields
  rw [fieldOr_congr henabled, fieldOr_congr hplaceholder, fieldOr_congr hworkers,
    fieldOr_congr hretain]

/-! ### Two environments -/

theorem settingVariable_congr (hagree : AgreeApart setting env other) {third : Setting}
    (hthird : third ≠ setting) :
    settingVariable env third.variableName = settingVariable other third.variableName := by
  apply hagree
  cases third <;> cases setting <;> simp_all [variableName]

theorem fault?_congr (hagree : AgreeApart setting env other)
    (hsame : setting.fault? env = setting.fault? other) (third : Setting) :
    third.fault? env = third.fault? other := by
  by_cases hthird : third = setting
  · rw [hthird, hsame]
  · unfold fault?
    rw [settingVariable_congr hagree hthird]

theorem unreadable?_congr (hagree : AgreeApart setting env other)
    (hsame : setting.fault? env = setting.fault? other) : unreadable? env = unreadable? other := by
  unfold unreadable?
  rw [fault?_congr hagree hsame .enabled, fault?_congr hagree hsame .retainUnclaimed]

theorem fault?_of_text (htext : setting.isDecision = false) (env : Environment) :
    setting.fault? env = none := by
  unfold fault?
  cases settingVariable env setting.variableName <;> simp [htext]

/-- With an explicit value, environments that refuse the same variables make one result. -/
theorem ofEnvironment_congr {v : Value} (hagree : AgreeApart setting env other)
    (hgiven : givenAs overrides setting.field = some v) (hv : v ≠ .null)
    (hsame : unreadable? env = unreadable? other) :
    Settings.ofEnvironment env overrides = Settings.ofEnvironment other overrides := by
  cases hread : unreadable? env with
  | some fault =>
    rw [ofEnvironment_of_unreadable hread, ofEnvironment_of_unreadable (hsame ▸ hread)]
  | none =>
    rw [ofEnvironment_of_readable hread, ofEnvironment_of_readable (hsame ▸ hread)]
    refine congrArg _ (ofFields_congr fun third => ?_)
    rw [givenAs_append, givenAs_append, givenAs_statedFields, givenAs_statedFields]
    by_cases hthird : third = setting
    · rw [hthird, givenAs_explicitFields hgiven hv]
      rfl
    · unfold stated?
      rw [settingVariable_congr hagree hthird]

theorem of_fault? {fault : SettingsFault} (hfault : setting.fault? env = some fault) :
    ∃ word, settingVariable env setting.variableName = some word ∧
      variableDecision? word = none ∧
        fault = .notDecision (variableStem ++ setting.variableName) word := by
  obtain ⟨word, hword, hrefused⟩ := Option.bind_eq_some_iff.mp hfault
  split at hrefused
  · rename_i hnone
    rw [Bool.and_eq_true, Option.isNone_iff_eq_none] at hnone
    exact ⟨word, hword, hnone.2, (Option.some.inj hrefused).symm⟩
  · cases hrefused

theorem exists_notDecision_of_unreadable {fault : SettingsFault}
    (hfault : unreadable? env = some fault) : ∃ name word, fault = .notDecision name word := by
  rcases Option.or_eq_some_iff.mp hfault with henabled | ⟨-, hretain⟩
  · obtain ⟨word, -, -, hword⟩ := of_fault? henabled
    exact ⟨_, word, hword⟩
  · obtain ⟨word, -, -, hword⟩ := of_fault? hretain
    exact ⟨_, word, hword⟩

/-- A variable that states no decision is refused in other words than fields are. -/
theorem ofEnvironment_ne_of_readable {fault : SettingsFault} (hreadable : unreadable? env = none)
    (hfault : unreadable? other = some fault) :
    Settings.ofEnvironment env overrides ≠ Settings.ofEnvironment other overrides := by
  obtain ⟨name, word, rfl⟩ := exists_notDecision_of_unreadable hfault
  rw [ofEnvironment_of_readable hreadable, ofEnvironment_of_unreadable hfault]
  intro heq
  cases hfields : Settings.ofFields (statedFields env ++ explicitFields overrides) with
  | ok settings =>
    rw [hfields] at heq
    cases heq
  | error issues =>
    rw [hfields] at heq
    cases heq

theorem unreadable?_eq_of_ofEnvironment_eq
    (heq : Settings.ofEnvironment env overrides = Settings.ofEnvironment other overrides) :
    unreadable? env = unreadable? other := by
  cases hread : unreadable? env with
  | none =>
    cases hother : unreadable? other with
    | none => rfl
    | some fault => exact absurd heq (ofEnvironment_ne_of_readable hread hother)
  | some fault =>
    cases hother : unreadable? other with
    | none => exact absurd heq.symm (ofEnvironment_ne_of_readable hother hread)
    | some second =>
      rw [ofEnvironment_of_unreadable hread, ofEnvironment_of_unreadable hother] at heq
      rw [Except.error.inj heq]

/-- **An explicit value wins over the variable of its setting exactly when the variable is not
refused before.**  A variable for a text or a number never is. -/
theorem overrides_win (setting : Setting) :
    (setting.isDecision = false → OverridesWin setting) ∧
      ∀ env other overrides v, AgreeApart setting env other →
        givenAs overrides setting.field = some v → v ≠ .null →
          (setting.fault? env = none → setting.fault? other = none →
            Settings.ofEnvironment env overrides = Settings.ofEnvironment other overrides) ∧
          (Settings.ofEnvironment env overrides = Settings.ofEnvironment other overrides ↔
            unreadable? env = unreadable? other) ∧
          ∀ fault, unreadable? env = some fault →
            Settings.ofEnvironment env overrides = .error fault := by
  constructor
  · intro htext env other overrides v hagree hgiven hv
    apply ofEnvironment_congr hagree hgiven hv
    apply unreadable?_congr hagree
    rw [fault?_of_text htext, fault?_of_text htext]
  · intro env other overrides v hagree hgiven hv
    refine ⟨?_, ⟨unreadable?_eq_of_ofEnvironment_eq, ofEnvironment_congr hagree hgiven hv⟩,
      fun fault hfault => ofEnvironment_of_unreadable hfault⟩
    intro henv hother
    apply ofEnvironment_congr hagree hgiven hv
    apply unreadable?_congr hagree
    rw [henv, hother]

/-- An environment with one variable, under which an unusual word stands. -/
def oddEnvironment (setting : Setting) : Environment :=
  [(variableStem ++ setting.variableName, "maybe")]

theorem agreeApart_oddEnvironment (setting : Setting) :
    AgreeApart setting (oddEnvironment setting) [] := by
  intro name hname
  have hother : (variableStem ++ setting.variableName == variableStem ++ name) = false := by
    rw [beq_eq_false_iff_ne, ne_eq, String.append_right_inj]
    exact Ne.symm hname
  simp [settingVariable, oddEnvironment, hother]

/-- A number of workers that is none is replaced; a decision that is none is refused. -/
theorem overrides_win_workers :
    givenAs [("workers", .int 2)] Setting.workers.field = some (.int 2) ∧
      Settings.ofEnvironment (oddEnvironment .workers) [("workers", .int 2)] =
        Settings.ofEnvironment [] [("workers", .int 2)] ∧
      unreadable? (oddEnvironment .enabled) =
        some (.notDecision "CODEX_SKELETON_ENABLED" "maybe") ∧
      Settings.ofEnvironment (oddEnvironment .enabled) [("enabled", .bool false)] =
        .error (.notDecision "CODEX_SKELETON_ENABLED" "maybe") := by
  have hgiven : givenAs [("workers", .int 2)] Setting.workers.field = some (.int 2) := rfl
  have hrefused : unreadable? (oddEnvironment .enabled) =
      some (.notDecision "CODEX_SKELETON_ENABLED" "maybe") := by decide +kernel
  refine ⟨hgiven, ?_, hrefused, ?_⟩
  · exact (overrides_win .workers).1 rfl _ _ _ _ (agreeApart_oddEnvironment .workers) hgiven
      (by simp)
  · obtain ⟨-, -, hfault⟩ := (overrides_win .enabled).2 _ [] [("enabled", .bool false)]
      (.bool false) (agreeApart_oddEnvironment .enabled) rfl (by simp)
    exact hfault _ hrefused

theorem not_overridesWin_of_refused {fault : SettingsFault}
    (hrefused : unreadable? (oddEnvironment setting) = some fault) : ¬ OverridesWin setting := by
  intro hwins
  have hgiven : givenAs [(setting.field, .bool false)] setting.field = some (.bool false) := by
    simp [givenAs]
  have heq := hwins _ _ _ _ (agreeApart_oddEnvironment setting) hgiven (by simp)
  exact ofEnvironment_ne_of_readable rfl hrefused heq.symm

/-- A decision that is none is refused although another one is given explicitly. -/
theorem not_overridesWin_decision :
    Settings.ofEnvironment (oddEnvironment .enabled) [("enabled", .bool false)] =
        .error (.notDecision "CODEX_SKELETON_ENABLED" "maybe") ∧
      Settings.ofEnvironment [] [("enabled", .bool false)] =
        .ok { Settings.default with enabled := false } ∧
      ¬ OverridesWin .enabled ∧ ¬ OverridesWin .retainUnclaimed := by
  have henabled : unreadable? (oddEnvironment .enabled) =
      some (.notDecision "CODEX_SKELETON_ENABLED" "maybe") := by decide +kernel
  have hretain : unreadable? (oddEnvironment .retainUnclaimed) =
      some (.notDecision "CODEX_SKELETON_RETAIN_UNCLAIMED" "maybe") := by decide +kernel
  exact ⟨ofEnvironment_of_unreadable henabled, rfl, not_overridesWin_of_refused henabled,
    not_overridesWin_of_refused hretain⟩

end CodeOutline
