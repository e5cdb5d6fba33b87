/-
  CodeOutline/Proofs/Rules/Captured.lean
  ======================================
  **What the rules of a profile capture in a tree.**

  `capturedDefinitions` says it without a matcher: for every rule, every pattern of its query and
  every embedding of the pattern in the tree, the nodes that the embedding captures as definitions,
  each beside the first node that it captures as a body.  What one embedding captures is one of the
  rule's `captureLists`.

  The matches of a file are those of these definitions, with their multiplicities
  (`captureMatches_exact`).  No embedding is missed, none is invented and none counts twice, however
  deep patterns and trees are nested.
-/
import CodeOutline.Proofs.Query.Counts
import CodeOutline.Proofs.Rules.Claims
import CodeOutline.Proofs.Rules.Compile

namespace CodeOutline

/-- What each embedding of one of the rule's patterns captures. -/
def CompiledRule.captureLists (compiled : CompiledRule) (root : Node) : List (List Capture) :=
  compiled.query.flatMap fun p => (p.embeddingsIn root).map p.capturesAt

/-- The definitions that embeddings of the rules' patterns capture, each with the first body
captured beside it. -/
def capturedDefinitions (rules : List CompiledRule) (root : Node) : List Definition :=
  rules.flatMap fun compiled =>
    (compiled.captureLists root).flatMap (definitionsOf compiled.rule root)

/-! ### The captures of an embedding -/

theorem pairwise_capturesOf {ps : List Pattern} {places : List Place}
    (hpairwise : places.Pairwise (· < ·)) :
    (Pattern.capturesOf ps places).Pairwise fun a b => ¬ b.place < a.place := by
  induction places generalizing ps with
  | nil => simp [Pattern.capturesOf]
  | cons place places ih =>
    cases ps with
    | nil => simp [Pattern.capturesOf]
    | cons p ps =>
      obtain ⟨hfirst, hrest⟩ := List.pairwise_cons.mp hpairwise
      rw [Pattern.capturesOf, List.zip_cons_cons, List.flatMap_cons, List.pairwise_append]
      refine ⟨?_, ih hrest, ?_⟩
      · rw [List.pairwise_map]
        exact List.pairwise_of_forall fun _ _ => List.lt_irrefl place
      · intro a ha b hb
        obtain ⟨name, -, rfl⟩ := List.mem_map.mp ha
        obtain ⟨part, hpart, hb⟩ := List.mem_flatMap.mp hb
        obtain ⟨other, -, rfl⟩ := List.mem_map.mp hb
        exact List.lt_asymm (hfirst part.2 (List.of_mem_zip hpart).2)

theorem mem_places_of_mem_capturesOf {ps : List Pattern} {places : List Place} {c : Capture}
    (hc : c ∈ Pattern.capturesOf ps places) : c.place ∈ places := by
  obtain ⟨part, hpart, hc⟩ := List.mem_flatMap.mp hc
  obtain ⟨name, -, rfl⟩ := List.mem_map.mp hc
  exact (List.of_mem_zip hpart).2

/-- The captures of an embedding come in the preorder of the tree. -/
theorem pairwise_capturesAt {p : Pattern} {root : Node} {places : List Place}
    (hplaces : places ∈ p.embeddingsIn root) :
    (p.capturesAt places).Pairwise fun a b => ¬ b.place < a.place := by
  obtain ⟨spot, -, hembeds⟩ := Pattern.mem_embeddingsIn.mp hplaces
  exact pairwise_capturesOf (Pattern.pairwise_of_embeds p hembeds).2

mutual

/-- All places that an embedding uses lead to nodes. -/
theorem exists_at?_of_embeds {root : Node} (p : Pattern) {spot : Spot} {places : List Place}
    (hspot : spot ∈ root.spots) (hembeds : p.Embeds spot places) :
    ∀ place ∈ places, ∃ node, root.at? place = some node := by
  cases p with
  | mk field test captures children =>
    obtain ⟨-, below, hbelow, rfl⟩ := Pattern.embeds_iff.mp hembeds
    intro place hplace
    rcases List.mem_cons.mp hplace with rfl | hplace
    · exact ⟨spot.node, mem_spots_iff.mp hspot⟩
    · have hchildren : ∀ child ∈ spot.children, child ∈ root.spots :=
        fun child => mem_spots_of_mem_children hspot
      exact exists_at?_of_embedsAmong children hchildren hbelow place hplace

theorem exists_at?_of_embedsAmong {root : Node} (ps : List Pattern) {spots : List Spot}
    {places : List Place} (hspots : ∀ spot ∈ spots, spot ∈ root.spots)
    (hembeds : Pattern.EmbedsAmong ps spots places) :
    ∀ place ∈ places, ∃ node, root.at? place = some node := by
  cases ps with
  | nil =>
    cases hembeds
    simp
  | cons p ps =>
    induction spots with
    | nil => cases hembeds
    | cons spot spots ih =>
      obtain ⟨hspot, hrest⟩ := List.forall_mem_cons.mp hspots
      rcases Pattern.embedsAmong_cons_iff.mp hembeds with ⟨here, there, hhere, hthere, rfl⟩ | hlater
      · intro place hplace
        rcases List.mem_append.mp hplace with hplace | hplace
        · exact exists_at?_of_embeds p hspot hhere place hplace
        · exact exists_at?_of_embedsAmong ps hrest hthere place hplace
      · exact ih hrest hlater

end

theorem exists_at?_of_mem_capturesAt {p : Pattern} {root : Node} {places : List Place}
    (hplaces : places ∈ p.embeddingsIn root) :
    ∀ c ∈ p.capturesAt places, ∃ node, root.at? c.place = some node := by
  obtain ⟨spot, hspot, hembeds⟩ := Pattern.mem_embeddingsIn.mp hplaces
  intro c hc
  exact exists_at?_of_embeds p hspot hembeds c.place (mem_places_of_mem_capturesOf hc)

/-! ### Definitions and their matches -/

theorem placesOf_wantedOf {wanted : List String} {name : String} (hname : name ∈ wanted)
    (captures : List Capture) :
    placesOf name (Pattern.wantedOf wanted captures) = placesOf name captures := by
  rw [placesOf, placesOf, Pattern.wantedOf, List.filter_filter]
  congr 1
  refine List.filter_congr fun c _ => ?_
  by_cases hsame : c.name = name
  · simp [hsame, hname]
  · simp [hsame]

/-- Captures under other names say nothing of definitions. -/
theorem definitionsOf_wantedOf (rule : Rule) (root : Node) (captures : List Capture) :
    definitionsOf rule root (Pattern.wantedOf [definitionName, bodyName] captures) =
      definitionsOf rule root captures := by
  rw [definitionsOf, definitionsOf, placesOf_wantedOf (by simp), placesOf_wantedOf (by simp)]

/-- The definitions that the matcher finds are those that embeddings capture. -/
theorem occurrences_definitions_perm (rules : List CompiledRule) (root : Node) :
    (Tally.occurrences (rules.flatMap fun compiled => compiled.definitions root)).Perm
      (capturedDefinitions rules root) := by
  rw [Tally.occurrences_flatMap]
  refine List.Perm.flatMap_left rules fun compiled _ => ?_
  have hrun := occurrences_run_perm [definitionName, bodyName] compiled.query root
  refine (Tally.occurrences_expand_perm _ _).trans ((hrun.flatMap_right _).trans ?_)
  refine List.Perm.of_eq ?_
  rw [CompiledRule.captureLists, List.flatMap_assoc, List.flatMap_assoc]
  simp only [List.flatMap_map, definitionsOf_wantedOf]

theorem positive_definitions (rules : List CompiledRule) (root : Node) :
    Tally.Positive (rules.flatMap fun compiled => compiled.definitions root) := by
  intro d hd
  obtain ⟨compiled, -, hd⟩ := List.mem_flatMap.mp hd
  exact Tally.positive_expand _ (positive_run _ compiled.query root) d hd

theorem mem_capturedDefinitions_iff {rules : List CompiledRule} {root : Node} {d : Definition} :
    d ∈ capturedDefinitions rules root ↔
      ∃ x ∈ rules.flatMap fun compiled => compiled.definitions root, x.value = d := by
  rw [← (occurrences_definitions_perm rules root).mem_iff,
    Tally.mem_occurrences_iff (positive_definitions rules root)]

theorem mem_preorder_of_mem_capturedDefinitions {rules : List CompiledRule} {root : Node}
    {d : Definition} (hd : d ∈ capturedDefinitions rules root) : d.node ∈ root.preorder := by
  obtain ⟨x, hx, rfl⟩ := mem_capturedDefinitions_iff.mp hd
  obtain ⟨compiled, -, hx⟩ := List.mem_flatMap.mp hx
  exact mem_preorder_of_mem_definitions hx

theorem captureMatches_of_forall {rules : List CompiledRule} {source : List UInt8} {root : Node}
    (hall : ∀ d ∈ capturedDefinitions rules root, ∃ ms, d.claims source = .ok ms) :
    captureMatches rules source root = .ok (Tally.expand (Definition.claimed source)
      (rules.flatMap fun compiled => compiled.definitions root)) := by
  refine claimsOf_of_forall ?_
  intro x hx
  exact hall x.value (mem_capturedDefinitions_iff.mpr ⟨x, hx, rfl⟩)

/-- The matches of a tree can be made when every captured definition can claim its own. -/
theorem exists_captureMatches_iff {rules : List CompiledRule} {source : List UInt8} {root : Node} :
    (∃ claims, captureMatches rules source root = .ok claims) ↔
      ∀ d ∈ capturedDefinitions rules root, ∃ ms, d.claims source = .ok ms := by
  constructor
  · rintro ⟨claims, hclaims⟩ d hd
    obtain ⟨x, hx, rfl⟩ := mem_capturedDefinitions_iff.mp hd
    cases hd : x.value.claims source with
    | ok ms => exact ⟨ms, rfl⟩
    | error fault =>
      obtain ⟨other, hother⟩ := claimsOf_error_iff.mpr ⟨x, hx, fault, hd⟩
      rw [captureMatches, hother] at hclaims
      cases hclaims
  · intro hall
    exact ⟨_, captureMatches_of_forall hall⟩

/-- The matches of a tree are those that its captured definitions claim. -/
theorem mem_captureMatches_iff {rules : List CompiledRule} {source : List UInt8} {root : Node}
    {claims : Tally Match} (hclaims : captureMatches rules source root = .ok claims) {m : Match} :
    m ∈ claims.map Counted.value ↔
      ∃ d ∈ capturedDefinitions rules root, m ∈ d.claimed source := by
  rw [captureMatches_of_forall (exists_captureMatches_iff.mp ⟨claims, hclaims⟩),
    Except.ok.injEq] at hclaims
  subst hclaims
  simp only [Tally.expand, List.map_flatMap, List.map_map, Function.comp_def, List.map_id']
  rw [List.mem_flatMap]
  constructor
  · rintro ⟨x, hx, hm⟩
    exact ⟨x.value, mem_capturedDefinitions_iff.mpr ⟨x, hx, rfl⟩, hm⟩
  · rintro ⟨d, hd, hm⟩
    obtain ⟨x, hx, rfl⟩ := mem_capturedDefinitions_iff.mp hd
    exact ⟨x, hx, hm⟩

theorem occurrences_captureMatches_perm {rules : List CompiledRule} {source : List UInt8}
    {root : Node} {claims : Tally Match}
    (hclaims : captureMatches rules source root = .ok claims) :
    (Tally.occurrences claims).Perm
      ((capturedDefinitions rules root).flatMap (Definition.claimed source)) := by
  have hmade := captureMatches_of_forall (exists_captureMatches_iff.mp ⟨claims, hclaims⟩)
  obtain rfl := Except.ok.inj (hclaims.symm.trans hmade)
  exact (Tally.occurrences_expand_perm _ _).trans
    ((occurrences_definitions_perm rules root).flatMap_right _)

/-! ### All matches of a tree -/

/-- **The matches of a tree are exactly those of what embeddings capture in it**, with their
multiplicities. -/
theorem captureMatches_exact (profile : Profile) (rules : List CompiledRule)
    (hcompile : profile.compile = .ok rules) (source : List UInt8) (root : Node) :
    (rules.map CompiledRule.rule = profile.rules ∧
        ∀ compiled ∈ rules, Query.compile profile.grammar compiled.rule.query =
          some compiled.query) ∧
      (root.spots.map Spot.node = root.preorder ∧
        root.spots.Pairwise fun a b => a.place < b.place) ∧
      (∀ p : Pattern, (p.embeddingsIn root).Nodup ∧
        ∀ places, places ∈ p.embeddingsIn root ↔ ∃ spot ∈ root.spots, p.Embeds spot places) ∧
      (∀ (p : Pattern) (places : List Place), places ∈ p.embeddingsIn root →
        ((p.capturesAt places).Pairwise fun a b => ¬ b.place < a.place) ∧
          ∀ c ∈ p.capturesAt places, ∃ node, root.at? c.place = some node) ∧
      ((∃ claims, captureMatches rules source root = .ok claims) ↔
        ∀ d ∈ capturedDefinitions rules root, ∃ ms, d.claims source = .ok ms) ∧
      ∀ claims, captureMatches rules source root = .ok claims →
        (Tally.occurrences claims).Perm
          ((capturedDefinitions rules root).flatMap (Definition.claimed source)) := by
  refine ⟨of_compile hcompile, ⟨map_node_spots root, pairwise_spots root⟩, ?_, ?_,
    exists_captureMatches_iff, ?_⟩
  · intro p
    exact ⟨Pattern.nodup_embeddingsIn p root, fun places => Pattern.mem_embeddingsIn⟩
  · intro p places hplaces
    exact ⟨pairwise_capturesAt hplaces, exists_at?_of_mem_capturesAt hplaces⟩
  · intro claims hclaims
    exact occurrences_captureMatches_perm hclaims

/-- A language in which an item of a pair is a definition and a later one is its body. -/
def pairProfile : Profile :=
  ⟨"lua", [], ⟨fun _ => true, fun _ => true⟩,
    [⟨.signatureOnly, 10, [], "(pair (item) @definition (item) @body)"⟩], true⟩

/-- Three items, so that there are three ways to take two of them in order. -/
def threeItems : Node :=
  ⟨"pair", true, [], 0, 6,
    [⟨"item", true, [], 0, 2, []⟩, ⟨"item", true, [], 2, 4, []⟩, ⟨"item", true, [], 4, 6, []⟩]⟩

def threeItemsSource : List UInt8 :=
  [97, 98, 99, 100, 101, 102]

/-- The first item is claimed twice: with the second one for its body, which it meets, and with the
third one, which lies outside it. -/
theorem captureMatches_exact_pairs :
    ∃ rules claims, pairProfile.compile = .ok rules ∧
      captureMatches rules threeItemsSource threeItems = .ok claims ∧
      (Tally.occurrences claims).Perm
        [⟨0, 2, .signatureOnly, 10, "item", by decide, by decide⟩,
          ⟨0, 2, .fullDefinition, 10, "item", by decide, by decide⟩,
          ⟨2, 4, .signatureOnly, 10, "item", by decide, by decide⟩] := by
  have hqueries : ∀ rule ∈ pairProfile.rules, ¬ rule.Malformed pairProfile.grammar := by
    decide +kernel
  obtain ⟨rules, hcompile⟩ := exists_compile_iff.mpr hqueries
  obtain ⟨⟨hrules, hquery⟩, -, -, -, hexists, hperm⟩ :=
    captureMatches_exact pairProfile rules hcompile threeItemsSource threeItems
  have hfits : threeItems.Fits threeItemsSource.length := by decide
  obtain ⟨claims, hclaims⟩ := hexists.mpr fun d hd =>
    exists_claims_of_fits hfits (mem_preorder_of_mem_capturedDefinitions hd)
  refine ⟨rules, claims, hcompile, hclaims, ?_⟩
  have hclaimed := hperm claims hclaims
  obtain ⟨compiled, rfl, hrule⟩ := List.map_eq_singleton_iff.mp hrules
  -- the rule has one query, whatever it reads
  have hvalue : (Query.compile pairProfile.grammar "(pair (item) @definition (item) @body)").map
      (fun query => (capturedDefinitions [⟨⟨.signatureOnly, 10, [],
        "(pair (item) @definition (item) @body)"⟩, query⟩] threeItems).flatMap
          (Definition.claimed threeItemsSource)) =
      some [⟨0, 2, .signatureOnly, 10, "item", by decide, by decide⟩,
        ⟨0, 2, .fullDefinition, 10, "item", by decide, by decide⟩,
        ⟨2, 4, .signatureOnly, 10, "item", by decide, by decide⟩] := by
    decide +kernel
  obtain ⟨rule, query⟩ := compiled
  subst hrule
  have hread := hquery _ List.mem_cons_self
  simp only at hread
  rw [hread, Option.map_some, Option.some.injEq] at hvalue
  rwa [hvalue] at hclaimed

end CodeOutline
