/-
  CodeOutline/Proofs/Rules/Compile.lean
  =====================================
  **Which rules compile, and which one is reported when they do not.**

  The rules of a profile compile together exactly when each of them does
  (`exists_compile_iff`), each to the query that its text spells (`of_compile`).  Otherwise the
  first one that does not is named, by its number from zero on (`compile_error_iff`).
-/
import CodeOutline.Rules.Capture
import Mathlib.Data.List.Basic

namespace CodeOutline

/-- Whether the query of a rule is one for the grammar. -/
def Rule.Malformed (grammar : Grammar) (rule : Rule) : Prop :=
  Query.compile grammar rule.query = none

instance (grammar : Grammar) (rule : Rule) : Decidable (rule.Malformed grammar) :=
  decidable_of_iff ((Query.compile grammar rule.query).isNone = true) Option.isNone_iff_eq_none

/-- Whether `i` is the number of the first malformed rule in a list. -/
def FirstMalformed (grammar : Grammar) (rules : List Rule) (i : Nat) : Prop :=
  (∃ rule, rules[i]? = some rule ∧ rule.Malformed grammar) ∧
    ∀ j < i, ∀ rule, rules[j]? = some rule → ¬ rule.Malformed grammar

variable {language : String} {grammar : Grammar}

theorem firstMalformed_cons_zero {rule : Rule} {later : List Rule} :
    FirstMalformed grammar (rule :: later) 0 ↔ rule.Malformed grammar := by
  simp [FirstMalformed]

theorem firstMalformed_cons_succ {rule : Rule} {later : List Rule} {i : Nat} :
    FirstMalformed grammar (rule :: later) (i + 1) ↔
      ¬ rule.Malformed grammar ∧ FirstMalformed grammar later i := by
  rw [FirstMalformed, FirstMalformed, List.getElem?_cons_succ, and_left_comm]
  refine and_congr_right fun _ => ?_
  constructor
  · intro hearlier
    refine ⟨hearlier 0 (Nat.succ_pos i) rule rfl, ?_⟩
    intro j hj
    exact hearlier (j + 1) (Nat.succ_lt_succ hj)
  · rintro ⟨hfirst, hearlier⟩ j hj other hother
    cases j with
    | zero =>
      obtain rfl : rule = other := by simpa using hother
      exact hfirst
    | succ j => exact hearlier j (Nat.lt_of_succ_lt_succ hj) other (by simpa using hother)

/-! ### Compiling -/

theorem of_compileRules {index : Nat} {rules : List Rule} {compiled : List CompiledRule}
    (hcompile : compileRules language grammar index rules = .ok compiled) :
    compiled.map CompiledRule.rule = rules ∧
      ∀ c ∈ compiled, Query.compile grammar c.rule.query = some c.query := by
  induction rules generalizing index compiled with
  | nil =>
    obtain rfl : [] = compiled := Except.ok.inj hcompile
    simp
  | cons rule later ih =>
    rw [compileRules] at hcompile
    cases hquery : Query.compile grammar rule.query with
    | none => simp [hquery] at hcompile
    | some query =>
      simp only [hquery] at hcompile
      cases hlater : compileRules language grammar (index + 1) later with
      | error fault => simp [hlater, Except.map] at hcompile
      | ok rest =>
        simp only [hlater, Except.map, Except.ok.injEq] at hcompile
        obtain ⟨hrules, hqueries⟩ := ih hlater
        subst hcompile
        refine ⟨by simp [hrules], ?_⟩
        intro c hc
        rcases List.mem_cons.mp hc with rfl | hc
        · exact hquery
        · exact hqueries c hc

theorem compileRules_error_iff {index : Nat} {rules : List Rule} {fault : MalformedRule} :
    compileRules language grammar index rules = .error fault ↔
      ∃ i, FirstMalformed grammar rules i ∧ fault = ⟨language, index + i⟩ := by
  induction rules generalizing index with
  | nil => simp [compileRules, FirstMalformed]
  | cons rule later ih =>
    rw [compileRules]
    cases hquery : Query.compile grammar rule.query with
    | none =>
      have hmalformed : rule.Malformed grammar := hquery
      constructor
      · intro herror
        exact ⟨0, firstMalformed_cons_zero.mpr hmalformed, (Except.error.inj herror).symm⟩
      · rintro ⟨i, hfirst, rfl⟩
        cases i with
        | zero => rfl
        | succ i => exact absurd hmalformed (firstMalformed_cons_succ.mp hfirst).1
    | some query =>
      have hfine : ¬ rule.Malformed grammar := by simp [Rule.Malformed, hquery]
      have hmap : (compileRules language grammar (index + 1) later).map (⟨rule, query⟩ :: ·) =
          .error fault ↔ compileRules language grammar (index + 1) later = .error fault := by
        cases compileRules language grammar (index + 1) later <;> simp [Except.map]
      simp only [hmap, ih]
      constructor
      · rintro ⟨i, hfirst, rfl⟩
        exact ⟨i + 1, firstMalformed_cons_succ.mpr ⟨hfine, hfirst⟩, by simp; omega⟩
      · rintro ⟨i, hfirst, rfl⟩
        cases i with
        | zero => exact absurd (firstMalformed_cons_zero.mp hfirst) hfine
        | succ i => exact ⟨i, (firstMalformed_cons_succ.mp hfirst).2, by simp; omega⟩

/-! ### Profiles -/

variable {profile : Profile}

theorem of_compile {compiled : List CompiledRule} (hcompile : profile.compile = .ok compiled) :
    compiled.map CompiledRule.rule = profile.rules ∧
      ∀ c ∈ compiled, Query.compile profile.grammar c.rule.query = some c.query :=
  of_compileRules hcompile

/-- The rule that is reported is the first malformed one. -/
theorem compile_error_iff {fault : MalformedRule} :
    profile.compile = .error fault ↔
      ∃ i, FirstMalformed profile.grammar profile.rules i ∧ fault = ⟨profile.name, i⟩ := by
  simp [Profile.compile, compileRules_error_iff]

theorem exists_firstMalformed_iff {rules : List Rule} :
    (∃ i, FirstMalformed grammar rules i) ↔ ∃ rule ∈ rules, rule.Malformed grammar := by
  constructor
  · rintro ⟨i, ⟨rule, hrule, hmalformed⟩, -⟩
    exact ⟨rule, List.mem_of_getElem? hrule, hmalformed⟩
  · intro hsome
    induction rules with
    | nil => simp at hsome
    | cons rule later ih =>
      by_cases hrule : rule.Malformed grammar
      · exact ⟨0, firstMalformed_cons_zero.mpr hrule⟩
      · obtain ⟨other, hother, hmalformed⟩ := hsome
        rcases List.mem_cons.mp hother with rfl | hother
        · exact absurd hmalformed hrule
        · obtain ⟨i, hi⟩ := ih ⟨other, hother, hmalformed⟩
          exact ⟨i + 1, firstMalformed_cons_succ.mpr ⟨hrule, hi⟩⟩

theorem exists_compile_iff :
    (∃ compiled, profile.compile = .ok compiled) ↔
      ∀ rule ∈ profile.rules, ¬ rule.Malformed profile.grammar := by
  constructor
  · rintro ⟨compiled, hcompile⟩ rule hrule
    obtain ⟨hrules, hqueries⟩ := of_compile hcompile
    rw [← hrules] at hrule
    obtain ⟨c, hc, rfl⟩ := List.mem_map.mp hrule
    simp [Rule.Malformed, hqueries c hc]
  · intro hall
    cases hcompile : profile.compile with
    | ok compiled => exact ⟨compiled, rfl⟩
    | error fault =>
      obtain ⟨i, hfirst, -⟩ := compile_error_iff.mp hcompile
      obtain ⟨rule, hrule, hmalformed⟩ := exists_firstMalformed_iff.mp ⟨i, hfirst⟩
      exact absurd hmalformed (hall rule hrule)

end CodeOutline
