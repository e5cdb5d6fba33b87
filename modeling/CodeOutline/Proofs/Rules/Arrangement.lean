/-
  CodeOutline/Proofs/Rules/Arrangement.lean
  =========================================
  **Arrangements of one set of rules.**

  Rules can be put in another order, be repeated, be split into one rule for each pattern of their
  queries, and have their priorities moved to another scale (`Rearranged`).  What is left of them
  is what each pattern stands for: with which role, hints and priority (`Alike`).

  Rules that are alike capture the same definitions, with their priorities on the two scales, and
  so their matches decide every byte alike (`keptAt_captureMatches`).
-/
import CodeOutline.Proofs.Coverage.Verdict
import CodeOutline.Proofs.Query.Texts
import CodeOutline.Proofs.Rules.Captured

namespace CodeOutline

/-! ### Arrangements -/

/-- Whether another scale keeps the order of all priorities. -/
def KeepsOrder (scale : Int → Int) : Prop :=
  ∀ a b, a < b → scale a < scale b

theorem keepsOrder_id : KeepsOrder id :=
  fun _ _ hlt => hlt

theorem KeepsOrder.le_iff_le {scale : Int → Int} (hscale : KeepsOrder scale) {a b : Int} :
    scale a ≤ scale b ↔ a ≤ b := by
  constructor
  · intro hle
    by_contra hlt
    exact absurd (hscale b a (Int.not_le.mp hlt)) (Int.not_lt.mpr hle)
  · intro hle
    rcases Int.lt_or_eq_of_le hle with hlt | rfl
    · exact Int.le_of_lt (hscale a b hlt)
    · exact Int.le_refl _

/-- The rule with its priority on another scale. -/
def Rule.rescaled (scale : Int → Int) (rule : Rule) : Rule :=
  { rule with priority := scale rule.priority }

/-- The rule with another text for its query. -/
def Rule.asking (rule : Rule) (text : String) : Rule :=
  { rule with query := text }

/-- Whether the second list of rules is another arrangement of the first. -/
inductive Rearranged : List Rule → List Rule → Prop where
  | permuted {rules others : List Rule} (hperm : rules.Perm others) : Rearranged rules others
  | repeated {rules : List Rule} {rule : Rule} (hrule : rule ∈ rules) :
      Rearranged rules (rule :: rules)
  | split {rule : Rule} {query : Query} {texts : List String} (before after : List Rule)
      (hquery : Query.read rule.query.toList = some query) (hsome : query ≠ [])
      (htexts : texts.map (fun text => Query.read text.toList) = query.map fun p => some [p]) :
      Rearranged (before ++ rule :: after) (before ++ texts.map rule.asking ++ after)
  | rescaled {rules : List Rule} (scale : Int → Int) (hscale : KeepsOrder scale) :
      Rearranged rules (rules.map (Rule.rescaled scale))
  | symm {rules others : List Rule} : Rearranged rules others → Rearranged others rules
  | trans {rules others further : List Rule} : Rearranged rules others →
      Rearranged others further → Rearranged rules further

/-! ### What rules say -/

/-- What a rule says of the definitions that its query captures, with its priority on another
scale. -/
def Rule.standing (scale : Int → Int) (rule : Rule) : Rule :=
  (rule.rescaled scale).asking ""

/-- Whether the pattern is one of the rule's query. -/
def Rule.Asks (rule : Rule) (p : Pattern) : Prop :=
  ∃ query, Query.read rule.query.toList = some query ∧ p ∈ query

/-- Whether two lists of rules say the same, with priorities that `scale` leads over. -/
structure Alike (scale : Int → Int) (rules others : List Rule) : Prop where
  empty : rules = [] ↔ others = []
  malformed : ∀ grammar,
    (∃ rule ∈ rules, rule.Malformed grammar) ↔ ∃ rule ∈ others, rule.Malformed grammar
  asks : ∀ standing p,
    (∃ rule ∈ rules, rule.standing scale = standing ∧ rule.Asks p) ↔
      ∃ rule ∈ others, rule.standing id = standing ∧ rule.Asks p

theorem alike_of_mem {rules others : List Rule} (hsame : ∀ rule, rule ∈ rules ↔ rule ∈ others) :
    Alike id rules others where
  empty := by simp only [List.eq_nil_iff_forall_not_mem, hsame]
  malformed := by simp only [hsame, implies_true]
  asks := by simp only [hsame, implies_true]

theorem alike_rescaled (scale : Int → Int) (rules : List Rule) :
    Alike scale rules (rules.map (Rule.rescaled scale)) where
  empty := List.map_eq_nil_iff.symm
  malformed := by
    intro grammar
    simp only [List.mem_map, exists_exists_and_eq_and]
    rfl
  asks := by
    intro standing p
    simp only [List.mem_map, exists_exists_and_eq_and]
    rfl

/-! ### Splitting a rule -/

theorem allKnownTo_iff {grammar : Grammar} {query : Query} :
    Pattern.allKnownTo grammar query = true ↔ ∀ p ∈ query, p.knownTo grammar = true := by
  induction query with
  | nil => simp [Pattern.allKnownTo]
  | cons p later ih => rw [Pattern.allKnownTo, Bool.and_eq_true, ih, List.forall_mem_cons]

theorem malformed_iff {rule : Rule} {query : Query} {grammar : Grammar}
    (hquery : Query.read rule.query.toList = some query) :
    rule.Malformed grammar ↔ ∃ p ∈ query, ¬ p.knownTo grammar = true := by
  rw [Rule.Malformed, Query.compile, hquery]
  simp only [Option.bind_eq_bind, Option.bind_some, ite_eq_right_iff, reduceCtorEq, imp_false,
    allKnownTo_iff, not_forall, exists_prop]

theorem asks_iff {rule : Rule} {query : Query} {p : Pattern}
    (hquery : Query.read rule.query.toList = some query) : rule.Asks p ↔ p ∈ query := by
  simp [Rule.Asks, hquery]

/-- What comes down to the patterns of a rule's query comes down to those of its parts. -/
theorem exists_mem_split_iff {rule : Rule} {query : Query} {texts : List String}
    {before after : List Rule}
    (htexts : texts.map (fun text => Query.read text.toList) = query.map fun p => some [p])
    {property : Rule → Prop} {holds : Pattern → Prop}
    (hrule : property rule ↔ ∃ p ∈ query, holds p)
    (hparts : ∀ text p, Query.read text.toList = some [p] →
      (property (rule.asking text) ↔ holds p)) :
    (∃ r ∈ before ++ rule :: after, property r) ↔
      ∃ r ∈ before ++ texts.map rule.asking ++ after, property r := by
  have hspelled : ∀ q,
      (∃ text ∈ texts, Query.read text.toList = q) ↔ ∃ p ∈ query, some [p] = q := by
    intro q
    rw [← List.mem_map, htexts, List.mem_map]
  have hsplit : property rule ↔ ∃ r ∈ texts.map rule.asking, property r := by
    rw [hrule]
    constructor
    · rintro ⟨p, hp, hholds⟩
      obtain ⟨text, htext, hread⟩ := (hspelled (some [p])).mpr ⟨p, hp, rfl⟩
      exact ⟨_, List.mem_map_of_mem htext, (hparts text p hread).mpr hholds⟩
    · rintro ⟨part, hpart, hproperty⟩
      obtain ⟨text, htext, rfl⟩ := List.mem_map.mp hpart
      obtain ⟨p, hp, hread⟩ := (hspelled _).mp ⟨text, htext, rfl⟩
      exact ⟨p, hp, (hparts text p hread.symm).mp hproperty⟩
  simp only [List.mem_append, List.mem_cons, or_and_right, exists_or, exists_eq_left, hsplit,
    or_assoc]

theorem alike_split {rule : Rule} {query : Query} {texts : List String} (before after : List Rule)
    (hquery : Query.read rule.query.toList = some query) (hsome : query ≠ [])
    (htexts : texts.map (fun text => Query.read text.toList) = query.map fun p => some [p]) :
    Alike id (before ++ rule :: after) (before ++ texts.map rule.asking ++ after) where
  empty := by
    have hnonempty : texts ≠ [] := by
      rintro rfl
      exact hsome (List.map_eq_nil_iff.mp htexts.symm)
    simp [hnonempty]
  malformed := by
    intro grammar
    refine exists_mem_split_iff htexts (malformed_iff hquery) ?_
    intro text p hread
    have hasking : Query.read (rule.asking text).query.toList = some [p] := hread
    rw [malformed_iff hasking]
    simp
  asks := by
    intro standing p
    have hrule : (rule.standing id = standing ∧ rule.Asks p) ↔
        ∃ q ∈ query, rule.standing id = standing ∧ p = q := by
      rw [asks_iff hquery]
      constructor
      · rintro ⟨hstanding, hp⟩
        exact ⟨p, hp, hstanding, rfl⟩
      · rintro ⟨q, hq, hstanding, rfl⟩
        exact ⟨hstanding, hq⟩
    refine exists_mem_split_iff htexts hrule ?_
    intro text q hread
    have hasking : Query.read (rule.asking text).query.toList = some [q] := hread
    rw [asks_iff hasking, List.mem_singleton]
    rfl

/-- A rule whose query has one pattern a line is split into one rule for each line. -/
theorem rearranged_lines {rule : Rule} {query : Query} {texts : List String}
    (before after : List Rule)
    (hlines : rule.query.toList = Text.joinWith ['\n'] (texts.map String.toList))
    (hsome : query ≠ [])
    (htexts : texts.map (fun text => Query.read text.toList) = query.map fun p => some [p]) :
    Rearranged (before ++ rule :: after) (before ++ texts.map rule.asking ++ after) := by
  have hquery : Query.read rule.query.toList = some query := by
    rw [hlines]
    exact Query.read_lines htexts
  exact .split before after hquery hsome htexts

/-- What depends only on what rules say is common to all arrangements of them. -/
theorem Rearranged.same {β : Type} (result : List Rule → β)
    (halike : ∀ (scale : Int → Int) (rules others : List Rule), KeepsOrder scale →
      Alike scale rules others → result rules = result others)
    {rules others : List Rule} (hrearranged : Rearranged rules others) :
    result rules = result others := by
  induction hrearranged with
  | permuted hperm =>
    exact halike id _ _ keepsOrder_id (alike_of_mem fun rule => hperm.mem_iff)
  | repeated hrule =>
    refine halike id _ _ keepsOrder_id (alike_of_mem fun rule => ?_)
    constructor
    · exact List.mem_cons_of_mem _
    · intro hmem
      rcases List.mem_cons.mp hmem with rfl | hmem
      · exact hrule
      · exact hmem
  | split before after hquery hsome htexts =>
    exact halike id _ _ keepsOrder_id (alike_split before after hquery hsome htexts)
  | rescaled scale hscale => exact halike scale _ _ hscale (alike_rescaled scale _)
  | symm _ ih => exact ih.symm
  | trans _ _ ihFirst ihSecond => exact ihFirst.trans ihSecond

/-! ### What is captured -/

/-- The definition under what its rule says of it. -/
def Definition.standing (scale : Int → Int) (d : Definition) : Definition :=
  ⟨d.rule.standing scale, d.node, d.body⟩

theorem mem_definitionsOf_standing {scale : Int → Int} {rule : Rule} {root : Node}
    {captures : List Capture} {d : Definition} :
    d ∈ definitionsOf (rule.standing scale) root captures ↔
      ∃ x ∈ definitionsOf rule root captures, x.standing scale = d := by
  simp only [definitionsOf, List.mem_map, exists_exists_and_eq_and]
  rfl

section

variable {profile : Profile} {rules : List CompiledRule} {root : Node}

theorem mem_capturedDefinitions_of_compile (hcompile : profile.compile = .ok rules)
    {d : Definition} :
    d ∈ capturedDefinitions rules root ↔
      ∃ rule ∈ profile.rules, ∃ p, rule.Asks p ∧ ∃ places ∈ p.embeddingsIn root,
        d ∈ definitionsOf rule root (p.capturesAt places) := by
  obtain ⟨hrules, hqueries⟩ := of_compile hcompile
  have hread : ∀ compiled ∈ rules,
      Query.read compiled.rule.query.toList = some compiled.query := by
    intro compiled hcompiled
    exact Query.read_of_compile (hqueries compiled hcompiled)
  simp only [capturedDefinitions, CompiledRule.captureLists, List.flatMap_assoc, List.flatMap_map,
    List.mem_flatMap]
  rw [← hrules]
  simp only [List.mem_map, exists_exists_and_eq_and]
  refine exists_congr fun compiled => and_congr_right fun hcompiled => ?_
  simp only [asks_iff (hread compiled hcompiled)]

/-- The captured definitions, with their priorities on another scale, only depend on what the
rules say. -/
theorem exists_standing_iff (hcompile : profile.compile = .ok rules) {scale : Int → Int}
    {d : Definition} :
    (∃ x ∈ capturedDefinitions rules root, x.standing scale = d) ↔
      ∃ standing p, (∃ rule ∈ profile.rules, rule.standing scale = standing ∧ rule.Asks p) ∧
        ∃ places ∈ p.embeddingsIn root, d ∈ definitionsOf standing root (p.capturesAt places) := by
  constructor
  · rintro ⟨x, hx, rfl⟩
    obtain ⟨rule, hrule, p, hp, places, hplaces, hx⟩ :=
      (mem_capturedDefinitions_of_compile hcompile).mp hx
    exact ⟨_, p, ⟨rule, hrule, rfl, hp⟩, places, hplaces,
      mem_definitionsOf_standing.mpr ⟨x, hx, rfl⟩⟩
  · rintro ⟨_, p, ⟨rule, hrule, rfl, hp⟩, places, hplaces, hd⟩
    obtain ⟨x, hx, rfl⟩ := mem_definitionsOf_standing.mp hd
    exact ⟨x, (mem_capturedDefinitions_of_compile hcompile).mpr
      ⟨rule, hrule, p, hp, places, hplaces, hx⟩, rfl⟩

end

/-! ### What is claimed -/

/-- The match with its priority on another scale. -/
def Match.rescaled (scale : Int → Int) (m : Match) : Match :=
  { m with priority := scale m.priority }

@[simp] theorem covers_rescaled (scale : Int → Int) (m : Match) (i : Int) :
    (m.rescaled scale).covers i = m.covers i :=
  rfl

@[simp] theorem role_rescaled (scale : Int → Int) (m : Match) :
    (m.rescaled scale).role = m.role :=
  rfl

@[simp] theorem priority_rescaled (scale : Int → Int) (m : Match) :
    (m.rescaled scale).priority = scale m.priority :=
  rfl

theorem claim_rescaled (scale : Int → Int) (start stop : Int) (role : Role) (priority : Int)
    (kind : String) :
    claim start stop role (scale priority) kind =
      (claim start stop role priority kind).map (Match.rescaled scale) := by
  unfold claim Match.ofSpan
  split
  · rfl
  · rfl

theorem splitAtBody_standing (scale : Int → Int) (rule : Rule) (node body : Node)
    (source : List UInt8) :
    splitAtBody (rule.standing scale) node body source =
      (splitAtBody rule node body source).map (List.map (Match.rescaled scale)) := by
  have hpriority : (rule.standing scale).priority = scale rule.priority := rfl
  unfold splitAtBody
  rw [hpriority]
  cases signatureEnd source node.start body.start with
  | error fault => rfl
  | ok stop =>
    simp only [claim_rescaled, bind, Except.bind]
    generalize claim node.start stop .signatureOnly rule.priority node.kind = signature
    generalize claim stop node.stop .body rule.priority body.kind = rest
    by_cases hsignature : node.start < stop
    · by_cases hrest : stop < node.stop
      · cases signature <;> cases rest <;> simp [hsignature, hrest, Except.map]
      · cases signature <;> simp [hsignature, hrest, Except.map]
    · by_cases hrest : stop < node.stop
      · cases rest <;> simp [hsignature, hrest, Except.map]
      · simp [hsignature, hrest, Except.map]

/-- A definition claims the same spans for the same roles, whatever the scale of priorities. -/
theorem claims_standing (scale : Int → Int) (source : List UInt8) (d : Definition) :
    (d.standing scale).claims source =
      (d.claims source).map (List.map (Match.rescaled scale)) := by
  have hwhole : ∀ role,
      (do .ok [← claim d.node.start d.node.stop role (scale d.rule.priority) d.node.kind]) =
        (do .ok [← claim d.node.start d.node.stop role d.rule.priority d.node.kind] :
          Except CaptureFault (List Match)).map (List.map (Match.rescaled scale)) := by
    intro role
    rw [claim_rescaled]
    cases claim d.node.start d.node.stop role d.rule.priority d.node.kind <;> rfl
  have hsame : (d.rule.standing scale).role = d.rule.role ∧
      (d.rule.standing scale).hints = d.rule.hints ∧
        (d.rule.standing scale).priority = scale d.rule.priority := ⟨rfl, rfl, rfl⟩
  rw [Definition.claims, Definition.claims, Definition.standing, matchesFor, matchesFor, hsame.1,
    hsame.2.1, hsame.2.2]
  by_cases hrole : d.rule.role = .signatureOnly
  · rw [if_pos hrole, if_pos hrole]
    cases d.body.or (d.node.findBody d.rule.hints) with
    | none => exact hwhole .fullDefinition
    | some body =>
      by_cases hinside : d.node.start ≤ body.start ∧ body.start ≤ d.node.stop
      · simp only [if_pos hinside]
        exact splitAtBody_standing scale d.rule d.node body source
      · simp only [if_neg hinside]
        exact hwhole .fullDefinition
  · rw [if_neg hrole, if_neg hrole]
    exact hwhole d.rule.role

theorem exists_claims_standing_iff {scale : Int → Int} {source : List UInt8} {d : Definition} :
    (∃ ms, (d.standing scale).claims source = .ok ms) ↔ ∃ ms, d.claims source = .ok ms := by
  rw [claims_standing]
  cases d.claims source with
  | error fault => simp [Except.map]
  | ok ms => simp [Except.map]

theorem claimed_standing (scale : Int → Int) (source : List UInt8) (d : Definition) :
    (d.standing scale).claimed source = (d.claimed source).map (Match.rescaled scale) := by
  rw [Definition.claimed, Definition.claimed, claims_standing]
  cases d.claims source with
  | error fault => rfl
  | ok ms => rfl

/-- Another scale changes no decision as long as it keeps the order of priorities. -/
theorem keptAt_rescaled {scale : Int → Int} (hscale : KeepsOrder scale) {retain : Bool}
    {claims : List Match} {i : Int} :
    KeptAt retain (claims.map (Match.rescaled scale)) i ↔ KeptAt retain claims i := by
  simp only [KeptAt, List.mem_map, exists_exists_and_eq_and, forall_exists_index, and_imp,
    forall_apply_eq_imp_iff₂, covers_rescaled, role_rescaled, priority_rescaled, hscale.le_iff_le]

/-! ### Matches of a tree on another scale -/

section

variable {rules : List CompiledRule} {root : Node} {source : List UInt8} (scale : Int → Int)

/-- The matches can be made when they can be on another scale. -/
theorem exists_captureMatches_iff_standing :
    (∃ claims, captureMatches rules source root = .ok claims) ↔
      ∀ e, (∃ d ∈ capturedDefinitions rules root, d.standing scale = e) →
        ∃ ms, e.claims source = .ok ms := by
  rw [exists_captureMatches_iff]
  constructor
  · rintro hall _ ⟨d, hd, rfl⟩
    exact exists_claims_standing_iff.mpr (hall d hd)
  · intro hall d hd
    exact exists_claims_standing_iff.mp (hall _ ⟨d, hd, rfl⟩)

theorem mem_rescaled_iff_standing {claims : Tally Match}
    (hclaims : captureMatches rules source root = .ok claims) {m : Match} :
    m ∈ (claims.map Counted.value).map (Match.rescaled scale) ↔
      ∃ e, (∃ d ∈ capturedDefinitions rules root, d.standing scale = e) ∧ m ∈ e.claimed source := by
  rw [List.mem_map]
  constructor
  · rintro ⟨own, hown, rfl⟩
    obtain ⟨d, hd, hown⟩ := (mem_captureMatches_iff hclaims).mp hown
    refine ⟨_, ⟨d, hd, rfl⟩, ?_⟩
    rw [claimed_standing]
    exact List.mem_map_of_mem hown
  · rintro ⟨_, ⟨d, hd, rfl⟩, hm⟩
    rw [claimed_standing, List.mem_map] at hm
    obtain ⟨own, hown, rfl⟩ := hm
    exact ⟨own, (mem_captureMatches_iff hclaims).mpr ⟨d, hd, hown⟩, rfl⟩

end

/-! ### Rules that say the same -/

section

variable {scale : Int → Int} {profile other : Profile} {rules others : List CompiledRule}
  {root : Node} {source : List UInt8} (halike : Alike scale profile.rules other.rules)
  (hcompile : profile.compile = .ok rules) (hother : other.compile = .ok others)

include halike hcompile hother

theorem exists_standing_congr {d : Definition} :
    (∃ x ∈ capturedDefinitions rules root, x.standing scale = d) ↔
      ∃ x ∈ capturedDefinitions others root, x.standing id = d := by
  rw [exists_standing_iff hcompile, exists_standing_iff hother]
  simp only [halike.asks]

/-- Either both arrangements can make their matches or none of them can. -/
theorem exists_captureMatches_congr :
    (∃ claims, captureMatches rules source root = .ok claims) ↔
      ∃ claims, captureMatches others source root = .ok claims := by
  rw [exists_captureMatches_iff_standing scale, exists_captureMatches_iff_standing id]
  simp only [exists_standing_congr halike hcompile hother]

/-- The matches of both arrangements decide every byte alike. -/
theorem keptAt_captureMatches (hscale : KeepsOrder scale) {claims claimsOther : Tally Match}
    (hclaims : captureMatches rules source root = .ok claims)
    (hclaimsOther : captureMatches others source root = .ok claimsOther) {retain : Bool} {i : Int} :
    KeptAt retain (claims.map Counted.value) i ↔
      KeptAt retain (claimsOther.map Counted.value) i := by
  have hmem : ∀ m, m ∈ (claims.map Counted.value).map (Match.rescaled scale) ↔
      m ∈ (claimsOther.map Counted.value).map (Match.rescaled id) := by
    intro m
    rw [mem_rescaled_iff_standing scale hclaims, mem_rescaled_iff_standing id hclaimsOther]
    simp only [exists_standing_congr halike hcompile hother]
  calc KeptAt retain (claims.map Counted.value) i
      ↔ KeptAt retain ((claims.map Counted.value).map (Match.rescaled scale)) i :=
        (keptAt_rescaled hscale).symm
    _ ↔ KeptAt retain ((claimsOther.map Counted.value).map (Match.rescaled id)) i :=
        keptAt_congr_of_mem fun m _ => hmem m
    _ ↔ KeptAt retain (claimsOther.map Counted.value) i := keptAt_rescaled keepsOrder_id

end

end CodeOutline
