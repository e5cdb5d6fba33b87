/-
  CodeOutline/Proofs/Rules/Directive.lean
  =======================================
  **Directive lines and their arguments.**

  `ofLine?_eq_some_iff` says which lines are directives, and `readArguments_eq_ok_iff` which words
  are arguments.  Where a key is given several times the last value counts, in the arguments of a
  rule (`lastValue?_eq_some_iff`) as well as in the options of a file (`mem_foldl_setValue_iff`).
-/
import CodeOutline.Proofs.Text.Blank
import CodeOutline.Rules.File
import Mathlib.Data.List.Forall2

namespace CodeOutline

open Text (Chars)

theorem bind_eq_ok_iff {ε α β : Type} {x : Except ε α} {f : α → Except ε β} {b : β} :
    (x >>= f) = .ok b ↔ ∃ a, x = .ok a ∧ f a = .ok b := by
  cases x with
  | error e => simp [bind, Except.bind]
  | ok a => simp [bind, Except.bind]

theorem forall₂_append_iff {α β : Type} {r : α → β → Prop} {left right : List α} {l : List β} :
    List.Forall₂ r (left ++ right) l ↔ ∃ first second,
      List.Forall₂ r left first ∧ List.Forall₂ r right second ∧ l = first ++ second := by
  constructor
  · intro hall
    induction left generalizing l with
    | nil => exact ⟨[], l, .nil, hall, rfl⟩
    | cons a left ih =>
      obtain ⟨b, rest, hb, hrest, rfl⟩ := List.forall₂_cons_left_iff.mp hall
      obtain ⟨first, second, hfirst, hsecond, rfl⟩ := ih hrest
      exact ⟨b :: first, second, .cons hb hfirst, hsecond, rfl⟩
  · rintro ⟨first, second, hfirst, hsecond, rfl⟩
    exact List.rel_append hfirst hsecond

theorem exists_forall₂_iff {α β : Type} {r : α → β → Prop} {l : List α} :
    (∃ others, List.Forall₂ r l others) ↔ ∀ a ∈ l, ∃ b, r a b := by
  induction l with
  | nil => simp
  | cons a l ih =>
    rw [List.forall_mem_cons, ← ih]
    constructor
    · rintro ⟨others, hall⟩
      obtain ⟨b, rest, hb, hrest, -⟩ := List.forall₂_cons_left_iff.mp hall
      exact ⟨⟨b, hb⟩, rest, hrest⟩
    · rintro ⟨⟨b, hb⟩, rest, hrest⟩
      exact ⟨b :: rest, .cons hb hrest⟩

/-- A reading that goes on from one thing to the next gives what the things give one by one. -/
theorem eq_ok_iff_forall₂ {ε α β : Type} (one : α → Except ε β) (all : List α → Except ε (List β))
    (hnil : all [] = .ok [])
    (hcons : ∀ a l, all (a :: l) = one a >>= fun b => all l >>= fun rest => .ok (b :: rest))
    {l : List α} {results : List β} :
    all l = .ok results ↔ List.Forall₂ (fun a b => one a = .ok b) l results := by
  induction l generalizing results with
  | nil => rw [hnil, List.forall₂_nil_left_iff, Except.ok.injEq, eq_comm]
  | cons a l ih =>
    simp only [hcons, bind_eq_ok_iff, List.forall₂_cons_left_iff, ih]
    constructor
    · rintro ⟨b, hb, rest, hrest, heq⟩
      exact ⟨b, rest, hb, hrest, (Except.ok.inj heq).symm⟩
    · rintro ⟨b, rest, hb, hrest, rfl⟩
      exact ⟨b, hb, rest, hrest, rfl⟩

/-! ### Directives -/

namespace Directive

def word : Directive → Chars
  | .rule _ => "rule".toList
  | .option _ => "option".toList

def text : Directive → Chars
  | .rule header => header
  | .option arguments => arguments

/-- Whether a line, blanks at its ends aside, is made of semicolons, the word of a directive, a
colon and the text of the directive. -/
def On (line : Chars) (d : Directive) : Prop :=
  ∃ marks gap space rest,
    Text.trim line = marks ++ (gap ++ (d.word ++ (space ++ ':' :: rest))) ∧
      marks ≠ [] ∧ (∀ c ∈ marks, c = ';') ∧ (∀ c ∈ gap, Text.isBlank c = true) ∧
      (∀ c ∈ space, Text.isBlank c = true) ∧ d.text = Text.trim rest

end Directive

theorem afterWord?_eq_some_iff {word text rest : Chars} :
    afterWord? word text = some rest ↔ text = word ++ rest := by
  rw [afterWord?]
  by_cases hprefix : word <+: text
  · obtain ⟨after, rfl⟩ := hprefix
    simp
  · rw [if_neg (mt List.isPrefixOf_iff_prefix.mp hprefix)]
    constructor
    · intro hnone
      cases hnone
    · rintro rfl
      exact absurd (List.prefix_append word rest) hprefix

theorem afterColon?_eq_some_iff {text after : Chars} :
    afterColon? text = some after ↔ ∃ space rest, text = space ++ ':' :: rest ∧
      (∀ c ∈ space, Text.isBlank c = true) ∧ after = Text.trim rest := by
  constructor
  · intro hafter
    rw [afterColon?] at hafter
    split at hafter
    · case h_1 rest hcolon =>
      refine ⟨text.takeWhile Text.isBlank, rest, ?_, ?_, (Option.some.inj hafter).symm⟩
      · rw [← hcolon, Text.trimLeft, List.takeWhile_append_dropWhile]
      · intro c hc
        exact List.mem_takeWhile_imp hc
    · cases hafter
  · rintro ⟨space, rest, rfl, hspace, rfl⟩
    have hcolon : Text.trimLeft (space ++ ':' :: rest) = ':' :: rest := by
      apply Text.dropWhile_append_of_head hspace
      intro c hc
      obtain rfl := Option.some.inj hc
      decide
    simp only [afterColon?, hcolon]

/-- The characters with which the text after the semicolons can begin. -/
theorem head?_gap_word {gap tail : Chars} {d : Directive}
    (hgap : ∀ c ∈ gap, Text.isBlank c = true) :
    ∀ c ∈ (gap ++ (d.word ++ tail)).head?, (c == ';') = false := by
  intro c hc
  cases gap with
  | nil =>
    cases d with
    | rule header =>
      obtain rfl : 'r' = c := Option.some.inj hc
      decide
    | option arguments =>
      obtain rfl : 'o' = c := Option.some.inj hc
      decide
  | cons b gap =>
    obtain rfl : b = c := Option.some.inj hc
    have hb := hgap b List.mem_cons_self
    rw [beq_eq_false_iff_ne]
    rintro rfl
    exact absurd hb (by decide)

theorem head?_word {tail : Chars} {d : Directive} :
    ∀ c ∈ (d.word ++ tail).head?, Text.isBlank c = false := by
  intro c hc
  cases d with
  | rule header =>
    obtain rfl : 'r' = c := Option.some.inj hc
    decide
  | option arguments =>
    obtain rfl : 'o' = c := Option.some.inj hc
    decide

theorem ofLine?_of_on {line : Chars} {d : Directive} (hon : d.On line) :
    Directive.ofLine? line = some d := by
  obtain ⟨marks, gap, space, rest, htrim, hne, hmarks, hgap, hspace, htext⟩ := hon
  obtain ⟨m, marks, rfl⟩ := List.exists_cons_of_ne_nil hne
  obtain rfl : m = ';' := hmarks m List.mem_cons_self
  have hbody : Text.trimLeft ((marks ++ (gap ++ (d.word ++ (space ++ ':' :: rest)))).dropWhile
      (· == ';')) = d.word ++ (space ++ ':' :: rest) := by
    rw [Text.dropWhile_append_of_head _ (head?_gap_word hgap)]
    · exact Text.dropWhile_append_of_head hgap head?_word
    · intro c hc
      exact beq_iff_eq.mpr (hmarks c (List.mem_cons_of_mem _ hc))
  have hcolon : afterColon? (space ++ ':' :: rest) = some d.text :=
    afterColon?_eq_some_iff.mpr ⟨space, rest, rfl, hspace, htext⟩
  rw [Directive.ofLine?, htrim]
  simp only [List.cons_append, hbody]
  cases d with
  | rule header =>
    have hrule : afterWord? "rule".toList ((Directive.rule header).word ++ (space ++ ':' :: rest)) =
        some (space ++ ':' :: rest) := afterWord?_eq_some_iff.mpr rfl
    simp only [hrule, hcolon]
    rfl
  | option arguments =>
    have hrule : afterWord? "rule".toList ((Directive.option arguments).word ++
        (space ++ ':' :: rest)) = none := by rfl
    have hoption : afterWord? "option".toList ((Directive.option arguments).word ++
        (space ++ ':' :: rest)) = some (space ++ ':' :: rest) := afterWord?_eq_some_iff.mpr rfl
    simp only [hrule, hoption, hcolon]
    rfl

theorem on_of_afterColon? {line marks gap after : Chars} {d : Directive}
    (htrim : Text.trim line = marks ++ (gap ++ (d.word ++ after))) (hne : marks ≠ [])
    (hmarks : ∀ c ∈ marks, c = ';') (hgap : ∀ c ∈ gap, Text.isBlank c = true)
    (hafter : afterColon? after = some d.text) : d.On line := by
  obtain ⟨space, rest, rfl, hspace, htext⟩ := afterColon?_eq_some_iff.mp hafter
  exact ⟨marks, gap, space, rest, htrim, hne, hmarks, hgap, hspace, htext⟩

theorem on_of_ofLine? {line : Chars} {d : Directive} (hd : Directive.ofLine? line = some d) :
    d.On line := by
  rw [Directive.ofLine?] at hd
  split at hd
  case h_2 => cases hd
  case h_1 rest htrim =>
    -- what is left of the semicolons, then of the blanks after them
    have hsplit : Text.trim line = (';' :: rest.takeWhile (· == ';')) ++
        ((rest.dropWhile (· == ';')).takeWhile Text.isBlank ++
          Text.trimLeft (rest.dropWhile (· == ';'))) := by
      rw [htrim, Text.trimLeft, List.takeWhile_append_dropWhile, List.cons_append,
        List.takeWhile_append_dropWhile]
    have hmarks : ∀ c ∈ ';' :: rest.takeWhile (· == ';'), c = ';' := by
      intro c hc
      rcases List.mem_cons.mp hc with rfl | hc
      · rfl
      · exact beq_iff_eq.mp (List.mem_takeWhile_imp (p := (· == ';')) hc)
    have hgap : ∀ c ∈ (rest.dropWhile (· == ';')).takeWhile Text.isBlank,
        Text.isBlank c = true := fun c hc => List.mem_takeWhile_imp hc
    dsimp only at hd
    split at hd
    case h_1 after hrule =>
      obtain ⟨header, hcolon, rfl⟩ := Option.map_eq_some_iff.mp hd
      rw [afterWord?_eq_some_iff.mp hrule] at hsplit
      exact on_of_afterColon? hsplit (List.cons_ne_nil _ _) hmarks hgap hcolon
    case h_2 =>
      split at hd
      case h_2 => cases hd
      case h_1 after hoption =>
        obtain ⟨arguments, hcolon, rfl⟩ := Option.map_eq_some_iff.mp hd
        rw [afterWord?_eq_some_iff.mp hoption] at hsplit
        exact on_of_afterColon? hsplit (List.cons_ne_nil _ _) hmarks hgap hcolon

/-- Which lines are directives. -/
theorem ofLine?_eq_some_iff {line : Chars} {d : Directive} :
    Directive.ofLine? line = some d ↔ d.On line :=
  ⟨on_of_ofLine?, ofLine?_of_on⟩

/-! ### Arguments -/

/-- Whether a word is a key, an equals sign and a value, of which none is empty. -/
def Gives (word key value : Chars) : Prop :=
  word = key ++ '=' :: value ∧ '=' ∉ key ∧ key ≠ [] ∧ value ≠ []

theorem takeWhile_ne_of_notMem {key tail : Chars} (hkey : '=' ∉ key) :
    (key ++ '=' :: tail).takeWhile (· ≠ '=') = key := by
  have hall : ∀ c ∈ key, decide (c ≠ '=') = true := by
    intro c hc
    rw [decide_eq_true_eq]
    rintro rfl
    exact hkey hc
  rw [List.takeWhile_append_of_pos hall, List.takeWhile_cons_of_neg (by decide), List.append_nil]

theorem gives_unique {word key other value another : Chars} (hgives : Gives word key value)
    (hother : Gives word other another) : key = other := by
  obtain ⟨rfl, hkey, -⟩ := hgives
  obtain ⟨heq, hothers, -⟩ := hother
  rw [← takeWhile_ne_of_notMem hkey, heq, takeWhile_ne_of_notMem hothers]

theorem readArgument_eq_ok_iff {word : Chars} {argument : Argument} :
    readArgument word = .ok argument ↔ ∃ key value, Gives word key value ∧
      argument = (String.ofList (Text.lower key), String.ofList value) := by
  constructor
  · intro hread
    rw [readArgument, Text.drop_length_takeWhile] at hread
    split at hread
    case isTrue => cases hread
    case isFalse hsome =>
      obtain ⟨hkey, hvalue⟩ := not_or.mp hsome
      obtain rfl := Except.ok.inj hread
      refine ⟨_, _, ⟨?_, ?_, hkey, hvalue⟩, rfl⟩
      · cases hrest : word.dropWhile (· ≠ '=') with
        | nil =>
          rw [hrest] at hvalue
          exact absurd rfl hvalue
        | cons c tail =>
          have hc : c = '=' := by
            have hhead := List.head?_dropWhile_not (· ≠ '=') word
            rw [hrest] at hhead
            simpa using hhead
          conv_lhs => rw [← List.takeWhile_append_dropWhile (p := (· ≠ '=')) (l := word)]
          rw [hrest, hc]
          rfl
      · intro hmem
        simpa using List.mem_takeWhile_imp hmem
  · rintro ⟨key, value, ⟨rfl, hnone, hkey, hvalue⟩, rfl⟩
    rw [readArgument, takeWhile_ne_of_notMem hnone, List.drop_left, List.drop_one, List.tail_cons]
    simp [hkey, hvalue]

/-- Whether the words are arguments, every one a key in any letter case and a value. -/
def ArgumentsOf (words : List Chars) (arguments : List Argument) : Prop :=
  List.Forall₂ (fun word argument => ∃ key value, Gives word key value ∧
    argument = (String.ofList (Text.lower key), String.ofList value)) words arguments

theorem readArguments_eq_ok_iff {words : List Chars} {arguments : List Argument} :
    readArguments words = .ok arguments ↔ ArgumentsOf words arguments := by
  rw [eq_ok_iff_forall₂ readArgument readArguments rfl fun _ _ => rfl, ArgumentsOf]
  simp only [readArgument_eq_ok_iff]

theorem exists_arguments_iff {words : List Chars} :
    (∃ arguments, ArgumentsOf words arguments) ↔
      ∀ word ∈ words, ∃ key value, Gives word key value := by
  simp only [ArgumentsOf, exists_forall₂_iff]
  refine forall₂_congr fun word _ => ⟨?_, ?_⟩
  · rintro ⟨_, key, value, hgives, -⟩
    exact ⟨key, value, hgives⟩
  · rintro ⟨key, value, hgives⟩
    exact ⟨_, key, value, hgives, rfl⟩

/-! ### The last value -/

/-- Whether a key is given a value that no later argument takes back. -/
def LastGiven (arguments : List Argument) (key value : String) : Prop :=
  ∃ before after, arguments = before ++ (key, value) :: after ∧ ∀ a ∈ after, a.1 ≠ key

theorem lastValue?_eq_none_iff {arguments : List Argument} {key : String} :
    lastValue? arguments key = none ↔ ∀ a ∈ arguments, a.1 ≠ key := by
  simp [lastValue?]

theorem lastValue?_eq_some_iff {arguments : List Argument} {key value : String} :
    lastValue? arguments key = some value ↔ LastGiven arguments key value := by
  simp only [lastValue?, Option.map_eq_some_iff, List.find?_eq_some_iff_append]
  constructor
  · rintro ⟨⟨k, v⟩, ⟨hkey, before, after, hreverse, hbefore⟩, rfl⟩
    obtain rfl := beq_iff_eq.mp hkey
    refine ⟨after.reverse, before.reverse, ?_, ?_⟩
    · rw [← List.reverse_reverse arguments, hreverse]
      simp
    · simpa using hbefore
  · rintro ⟨before, after, rfl, hafter⟩
    exact ⟨(key, value),
      ⟨by simp, after.reverse, before.reverse, by simp, by simpa using hafter⟩, rfl⟩

theorem lastGiven_concat_iff {arguments : List Argument} {a : Argument} {key value : String} :
    LastGiven (arguments ++ [a]) key value ↔
      a = (key, value) ∨ a.1 ≠ key ∧ LastGiven arguments key value := by
  simp only [← lastValue?_eq_some_iff, lastValue?, List.reverse_append, List.reverse_singleton,
    List.singleton_append, List.find?_cons]
  by_cases hkey : a.1 = key
  · subst hkey
    simp [Prod.ext_iff]
  · have hne : (a.1 == key) = false := beq_false_of_ne hkey
    simp [hne, hkey, Prod.ext_iff]

/-- The options of a file are the last values given to their keys. -/
theorem mem_foldl_setValue_iff {arguments : List Argument} {key value : String} :
    (key, value) ∈ arguments.foldl setValue [] ↔ LastGiven arguments key value := by
  induction arguments using List.reverseRecOn with
  | nil => simp [LastGiven]
  | append_singleton earlier a ih =>
    rw [List.foldl_append, lastGiven_concat_iff, ← ih]
    simp only [List.foldl_cons, List.foldl_nil, setValue, List.mem_append, List.mem_filter,
      List.mem_singleton, bne_iff_ne, ne_eq]
    rw [or_comm, and_comm, eq_comm (a := a), eq_comm (a := a.1)]

theorem nodup_foldl_setValue (arguments : List Argument) :
    ((arguments.foldl setValue []).map Prod.fst).Nodup := by
  induction arguments using List.reverseRecOn with
  | nil => simp
  | append_singleton earlier a ih =>
    rw [List.foldl_append, List.foldl_cons, List.foldl_nil, setValue, List.map_append,
      List.nodup_append]
    refine ⟨ih.sublist (List.filter_sublist.map Prod.fst), by simp, ?_⟩
    simp only [List.mem_map, List.mem_filter, bne_iff_ne, List.map_cons, List.map_nil,
      List.mem_singleton]
    rintro _ ⟨b, ⟨-, hb⟩, rfl⟩ _ rfl
    exact hb

end CodeOutline
