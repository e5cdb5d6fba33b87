/-
  CodeOutline/Proofs/Rules/Signatures.lean
  ========================================
  **What signatures cover, and when they run into a body.**

  A definition that is split keeps what comes before its body, less the blanks just before it
  (`exists_signature_covers_iff`).  A rule may split one definition many times, once for each
  embedding that captures it, and each time at the first body of that embedding alone.  So the
  signature that ends at a later body runs over an earlier one, and as both ask with one priority
  the earlier body is kept.  The bodies are spared exactly when nothing of this kind shows
  (`sparesBodies_iff`).

  A declaration of two arrow functions is captured twice by the bundled rules for it, and its first
  body is not spared (`not_sparesBodies_twoArrows`).
-/
import CodeOutline.Proofs.Languages.Bundle
import CodeOutline.Proofs.Rules.Captured

namespace CodeOutline

/-! ### The signature of a definition -/

/-- Whether the part of a definition before `first` covers the byte at `i` when the blanks at its
end are left out. -/
def Node.SignatureReaches (node first : Node) (source : List UInt8) (i : Int) : Prop :=
  node.start ≤ i ∧
    ∃ j b, i ≤ j ∧ j < first.start ∧ byteAt? source j = some b ∧ isBlankByte b = false

theorem exists_signature_covers_of_split {rule : Rule} {node body : Node} {source : List UInt8}
    {stop : Int} (hstart : 0 ≤ node.start) (hle : node.start ≤ stop)
    (hend : signatureEnd source node.start body.start = .ok stop) {claims : List Match}
    (hclaims : splitAtBody rule node body source = .ok claims) {i : Int} :
    (∃ m ∈ claims, m.role = .signatureOnly ∧ m.covers i = true) ↔ node.start ≤ i ∧ i < stop := by
  rw [splitAtBody_of_signatureEnd hstart hle hend, Except.ok.injEq] at hclaims
  subst hclaims
  constructor
  · rintro ⟨m, hm, hrole, hcovers⟩
    rcases List.mem_append.mp hm with hsignature | hrest
    · split at hsignature
      · obtain rfl := List.mem_singleton.mp hsignature
        exact (Match.covers_iff _ i).mp hcovers
      · simp at hsignature
    · split at hrest
      · obtain rfl := List.mem_singleton.mp hrest
        cases hrole
      · simp at hrest
  · rintro ⟨hi, hstop⟩
    rw [dif_pos (Int.lt_of_le_of_lt hi hstop)]
    refine ⟨_, List.mem_append_left _ List.mem_cons_self, rfl, ?_⟩
    exact (Match.covers_iff _ i).mpr ⟨hi, hstop⟩

/-- Only a definition that is split has a signature, and it covers what shows before the body. -/
theorem exists_signature_covers_iff {rule : Rule} {node : Node} {source : List UInt8}
    {captured : Option Node} (hstart : 0 ≤ node.start) (hle : node.start ≤ node.stop)
    (hstop : node.stop ≤ source.length) {claims : List Match}
    (hclaims : matchesFor rule node source captured = .ok claims) {i : Int} :
    (∃ m ∈ claims, m.role = .signatureOnly ∧ m.covers i = true) ↔
      ∃ first, rule.splitBody? node captured = some first ∧
        node.SignatureReaches first source i := by
  cases hsplit : rule.splitBody? node captured with
  | none =>
    rw [matchesFor_of_whole hsplit hstart hle, Except.ok.injEq] at hclaims
    subst hclaims
    constructor
    · rintro ⟨m, hm, hrole, -⟩
      obtain rfl := List.mem_singleton.mp hm
      dsimp only at hrole
      split at hrole
      case isTrue => cases hrole
      case isFalse hother => exact absurd hrole hother
    · rintro ⟨first, hfirst, -⟩
      cases hfirst
  | some body =>
    obtain ⟨-, -, hafter, hbefore⟩ := splitBody?_eq_some_iff.mp hsplit
    obtain ⟨stop, hend⟩ := exists_signatureEnd hstart hafter (Int.le_trans hbefore hstop)
    rw [matchesFor_of_split hsplit] at hclaims
    rw [exists_signature_covers_of_split hstart (signatureEnd_bounds hafter hend).1 hend hclaims]
    constructor
    · rintro ⟨hi, hlt⟩
      exact ⟨body, rfl, hi, (lt_signatureEnd_iff hafter hend hi).mp hlt⟩
    · rintro ⟨first, hfirst, hi, hshows⟩
      obtain rfl := Option.some.inj hfirst
      exact ⟨hi, (lt_signatureEnd_iff hafter hend hi).mpr hshows⟩

/-! ### The bodies of one definition -/

/-- The first node that is captured as a body. -/
def firstBody (root : Node) (captures : List Capture) : Option Node :=
  ((placesOf bodyName captures).head?).bind root.at?

namespace CompiledRule

variable (compiled : CompiledRule) (source : List UInt8) (root : Node)

/-- Whether an embedding of the rule captures these, and the place as a definition among them. -/
def Defines (place : Place) (captures : List Capture) : Prop :=
  captures ∈ compiled.captureLists root ∧ place ∈ placesOf definitionName captures

/-- Whether an embedding captures the node as a body of the definition at a place. -/
def HasBody (place : Place) (body : Node) : Prop :=
  ∃ captures, compiled.Defines root place captures ∧
    ∃ below ∈ placesOf bodyName captures, root.at? below = some body

/-- Whether an embedding has the definition at a place split at this body. -/
def SplitsAt (place : Place) (node first : Node) : Prop :=
  root.at? place = some node ∧ ∃ captures, compiled.Defines root place captures ∧
    compiled.rule.splitBody? node (firstBody root captures) = some first

/-- Whether the rule makes the match of the definition at a place. -/
def ClaimsAt (place : Place) (m : Match) : Prop :=
  ∃ captures node claims, compiled.Defines root place captures ∧ root.at? place = some node ∧
    matchesFor compiled.rule node source (firstBody root captures) = .ok claims ∧ m ∈ claims

/-- Whether no signature that the rule makes of a definition covers a byte of a body that the rule
captures for the same definition. -/
def SparesBodies : Prop :=
  ∀ place m body, compiled.ClaimsAt source root place m → m.role = .signatureOnly →
    compiled.HasBody root place body → ∀ i, body.start ≤ i → i < body.stop → m.covers i = false

end CompiledRule

variable {compiled : CompiledRule} {source : List UInt8} {root : Node}

/-- What a rule claims is what it claims for the definitions at all places. -/
theorem mem_claimed_iff (hfits : root.Fits source.length) {m : Match} :
    m ∈ (capturedDefinitions [compiled] root).flatMap (Definition.claimed source) ↔
      ∃ place, compiled.ClaimsAt source root place m := by
  constructor
  · intro hm
    obtain ⟨d, hd, hm⟩ := List.mem_flatMap.mp hm
    obtain ⟨claims, hclaims⟩ :=
      exists_claims_of_fits hfits (mem_preorder_of_mem_capturedDefinitions hd)
    rw [claimed_of_ok hclaims] at hm
    rw [capturedDefinitions, List.flatMap_singleton, List.mem_flatMap] at hd
    obtain ⟨captures, hcaptures, hd⟩ := hd
    obtain ⟨node, hnode, rfl⟩ := List.mem_map.mp hd
    obtain ⟨place, hplace, hnode⟩ := List.mem_filterMap.mp hnode
    exact ⟨place, captures, node, claims, ⟨hcaptures, hplace⟩, hnode, hclaims, hm⟩
  · rintro ⟨place, captures, node, claims, ⟨hcaptures, hplace⟩, hnode, hclaims, hm⟩
    refine List.mem_flatMap.mpr ⟨⟨compiled.rule, node, firstBody root captures⟩, ?_, ?_⟩
    · rw [capturedDefinitions, List.flatMap_singleton, List.mem_flatMap]
      refine ⟨captures, hcaptures, List.mem_map.mpr ⟨node, ?_, rfl⟩⟩
      exact List.mem_filterMap.mpr ⟨place, hplace, hnode⟩
    · have hd : Definition.claims ⟨compiled.rule, node, firstBody root captures⟩ source =
          .ok claims := hclaims
      rw [claimed_of_ok hd]
      exact hm

/-- A byte is covered by a signature of the definition at a place exactly when one of its splits
reaches so far. -/
theorem exists_claimsAt_covers_iff (hfits : root.Fits source.length) {place : Place} {i : Int} :
    (∃ m, compiled.ClaimsAt source root place m ∧ m.role = .signatureOnly ∧ m.covers i = true) ↔
      ∃ node first, compiled.SplitsAt root place node first ∧
        node.SignatureReaches first source i := by
  constructor
  · rintro ⟨m, ⟨captures, node, claims, hdefines, hnode, hclaims, hm⟩, hrole, hcovers⟩
    obtain ⟨hstart, hle, hstop⟩ := hfits node (mem_preorder_of_at? hnode)
    obtain ⟨first, hsplit, hreaches⟩ :=
      (exists_signature_covers_iff hstart hle hstop hclaims).mp ⟨m, hm, hrole, hcovers⟩
    exact ⟨node, first, ⟨hnode, captures, hdefines, hsplit⟩, hreaches⟩
  · rintro ⟨node, first, ⟨hnode, captures, hdefines, hsplit⟩, hreaches⟩
    obtain ⟨hstart, hle, hstop⟩ := hfits node (mem_preorder_of_at? hnode)
    have hmatches : ∃ claims,
        matchesFor compiled.rule node source (firstBody root captures) = .ok claims :=
      exists_matchesFor _ hstart hle hstop
    obtain ⟨claims, hclaims⟩ := hmatches
    obtain ⟨m, hm, hrole, hcovers⟩ :=
      (exists_signature_covers_iff hstart hle hstop hclaims).mpr ⟨first, hsplit, hreaches⟩
    exact ⟨m, ⟨captures, node, claims, hdefines, hnode, hclaims, hm⟩, hrole, hcovers⟩

theorem sparesBodies_iff_forall (hfits : root.Fits source.length) :
    compiled.SparesBodies source root ↔
      ∀ place node first body, compiled.SplitsAt root place node first →
        compiled.HasBody root place body → ∀ i, body.start ≤ i → i < body.stop →
          ¬ node.SignatureReaches first source i := by
  constructor
  · intro hspares place node first body hsplit hbody i hstart hstop hreaches
    obtain ⟨m, hm, hrole, hcovers⟩ :=
      (exists_claimsAt_covers_iff hfits).mpr ⟨node, first, hsplit, hreaches⟩
    rw [hspares place m body hm hrole hbody i hstart hstop] at hcovers
    cases hcovers
  · intro hnone place m body hm hrole hbody i hstart hstop
    by_contra hcovers
    obtain ⟨node, first, hsplit, hreaches⟩ := (exists_claimsAt_covers_iff hfits).mp
      ⟨m, hm, hrole, eq_true_of_ne_false hcovers⟩
    exact hnone place node first body hsplit hbody i hstart hstop hreaches

/-- **A rule spares the bodies of its definitions exactly when no split of a definition reaches a
body of the same definition**, and so wherever no definition is split beyond the start of one of
its bodies.  Of the rule's matches, none is left out of account. -/
theorem sparesBodies_iff (hfits : root.Fits source.length) :
    (∀ m, m ∈ (capturedDefinitions [compiled] root).flatMap (Definition.claimed source) ↔
        ∃ place, compiled.ClaimsAt source root place m) ∧
      (compiled.SparesBodies source root ↔
        ∀ place node first body, compiled.SplitsAt root place node first →
          compiled.HasBody root place body → ∀ i, body.start ≤ i → i < body.stop →
            ¬ node.SignatureReaches first source i) ∧
      ((∀ place node first body, compiled.SplitsAt root place node first →
          compiled.HasBody root place body → first.start ≤ body.start) →
        compiled.SparesBodies source root) := by
  refine ⟨fun m => mem_claimed_iff hfits, sparesBodies_iff_forall hfits, ?_⟩
  intro hbefore
  rw [sparesBodies_iff_forall hfits]
  rintro place node first body hsplit hbody i hstart - ⟨-, j, b, hij, hj, -, -⟩
  have hle := hbefore place node first body hsplit hbody
  omega

/-! ### Declarations of arrow functions -/

/-- The rule of the bundle for declarations of arrow functions. -/
def arrowRule : Rule :=
  ⟨.signatureOnly, defaultPriority, defaultHints,
    "(lexical_declaration
  (variable_declarator
    value: (arrow_function
      body: (_) @body))) @definition
(variable_declaration
  (variable_declarator
    value: (arrow_function
      body: (_) @body))) @definition"⟩

theorem arrowRule_bundled :
    ∀ language ∈ ["javascript", "tsx", "typescript"],
      ∃ profile, Bundle.registry.get? language = some profile ∧
        profile.grammar = Grammar.unrestricted ∧ arrowRule ∈ profile.rules := by
  have hjavascript : ((RuleFile.read (Text.unifyNewlines Bundle.javascript.toList)).toOption.any
      fun file => file.rules.contains arrowRule) = true := by
    rw [Bundle.javascript, String.toList_ofList]
    decide +kernel
  have htypescript : ((RuleFile.read (Text.unifyNewlines Bundle.typescript.toList)).toOption.any
      fun file => file.rules.contains arrowRule) = true := by
    rw [Bundle.typescript, String.toList_ofList]
    decide +kernel
  have hread : ∀ language ∈ ["javascript", "tsx", "typescript"],
      ∃ text, (language, text) ∈ Bundle.texts ∧
        ((RuleFile.read (Text.unifyNewlines text.toList)).toOption.any
          fun file => file.rules.contains arrowRule) = true := by
    simp only [List.forall_mem_cons]
    exact ⟨⟨Bundle.javascript, by simp [Bundle.texts], hjavascript⟩,
      ⟨Bundle.tsx, by simp [Bundle.texts], htypescript⟩,
      ⟨Bundle.typescript, by simp [Bundle.texts], htypescript⟩, by simp⟩
  intro language hlanguage
  obtain ⟨text, hentry, hrule⟩ := hread language hlanguage
  obtain ⟨file, profile, hfile, hfound, -, hgrammar, hrules⟩ := exists_bundled hentry
  refine ⟨profile, hfound, hgrammar, ?_⟩
  rw [hfile] at hrule
  rw [hrules]
  simpa [Except.toOption] using hrule

/-- The tree of an arrow function under a name of one letter, `f = () => 1`. -/
def arrowDeclarator (start : Int) : Node :=
  ⟨"variable_declarator", true, [], start, start + 11,
    [⟨"identifier", true, ["name"], start, start + 1, []⟩,
      ⟨"=", false, [], start + 2, start + 3, []⟩,
      ⟨"arrow_function", true, ["value"], start + 4, start + 11,
        [⟨"formal_parameters", true, ["parameters"], start + 4, start + 6,
            [⟨"(", false, [], start + 4, start + 5, []⟩,
              ⟨")", false, [], start + 5, start + 6, []⟩]⟩,
          ⟨"=>", false, [], start + 7, start + 9, []⟩,
          ⟨"number", true, ["body"], start + 10, start + 11, []⟩]⟩]⟩

def oneArrowSource : List UInt8 :=
  Utf8.encode "const f = () => 1;".toList

def oneArrow : Node :=
  ⟨"program", true, [], 0, 18,
    [⟨"lexical_declaration", true, [], 0, 18,
      [⟨"const", false, ["kind"], 0, 5, []⟩, arrowDeclarator 6, ⟨";", false, [], 17, 18, []⟩]⟩]⟩

def twoArrowsSource : List UInt8 :=
  Utf8.encode "const f = () => 1, g = () => 2;".toList

def twoArrows : Node :=
  ⟨"program", true, [], 0, 31,
    [⟨"lexical_declaration", true, [], 0, 31,
      [⟨"const", false, ["kind"], 0, 5, []⟩, arrowDeclarator 6, ⟨",", false, [], 17, 18, []⟩,
        arrowDeclarator 19, ⟨";", false, [], 30, 31, []⟩]⟩]⟩

theorem exists_compile_arrowRule : ∃ query,
    Query.compile Grammar.unrestricted arrowRule.query = some query ∧
      CompiledRule.captureLists ⟨arrowRule, query⟩ oneArrow =
        [[⟨[0], definitionName⟩, ⟨[0, 1, 2, 2], bodyName⟩]] ∧
      CompiledRule.captureLists ⟨arrowRule, query⟩ twoArrows =
        [[⟨[0], definitionName⟩, ⟨[0, 1, 2, 2], bodyName⟩],
          [⟨[0], definitionName⟩, ⟨[0, 3, 2, 2], bodyName⟩]] := by
  have hvalue : ((Query.compile Grammar.unrestricted arrowRule.query).map fun query =>
      (CompiledRule.captureLists ⟨arrowRule, query⟩ oneArrow,
        CompiledRule.captureLists ⟨arrowRule, query⟩ twoArrows)) =
      some ([[⟨[0], definitionName⟩, ⟨[0, 1, 2, 2], bodyName⟩]],
        [[⟨[0], definitionName⟩, ⟨[0, 1, 2, 2], bodyName⟩],
          [⟨[0], definitionName⟩, ⟨[0, 3, 2, 2], bodyName⟩]]) := by
    simp only [arrowRule]
    rw [Query.compile, String.toList_ofList]
    decide +kernel
  obtain ⟨query, hquery, hlists⟩ := Option.map_eq_some_iff.mp hvalue
  obtain ⟨hone, htwo⟩ := Prod.mk.inj hlists
  exact ⟨query, hquery, hone, htwo⟩

/-- The body of a single arrow function is spared. -/
theorem sparesBodies_iff_oneArrow : ∃ query,
    Query.compile Grammar.unrestricted arrowRule.query = some query ∧
      oneArrow.Fits oneArrowSource.length ∧
      CompiledRule.SparesBodies ⟨arrowRule, query⟩ oneArrowSource oneArrow := by
  obtain ⟨query, hquery, hone, -⟩ := exists_compile_arrowRule
  have hfits : oneArrow.Fits oneArrowSource.length := by decide +kernel
  refine ⟨query, hquery, hfits, (sparesBodies_iff hfits).2.2 ?_⟩
  rintro place node first body ⟨hnode, captures, ⟨hcaptures, hplace⟩, hsplit⟩
    ⟨others, ⟨hothers, -⟩, below, hbelow, hbody⟩
  rw [hone, List.mem_singleton] at hcaptures hothers
  subst hcaptures hothers
  -- the only body is the first one of the only embedding
  have hplaces : placesOf bodyName [⟨[0], definitionName⟩, ⟨[0, 1, 2, 2], bodyName⟩] =
      [[0, 1, 2, 2]] := by decide
  rw [hplaces, List.mem_singleton] at hbelow
  have hnumber : firstBody oneArrow [⟨[0], definitionName⟩, ⟨[0, 1, 2, 2], bodyName⟩] =
      some body := by
    rw [firstBody, hplaces, List.head?_cons, Option.bind_some, ← hbelow, hbody]
  obtain ⟨-, hfirst, -⟩ := splitBody?_eq_some_iff.mp hsplit
  rw [hnumber, Option.some_or, Option.some.injEq] at hfirst
  exact Int.le_of_eq (congrArg Node.start hfirst.symm)

/-- In a declaration of two arrow functions the body of the first one is kept with the signature
that ends at the second. -/
theorem not_sparesBodies_twoArrows :
    ∃ compiled : CompiledRule,
      (∀ language ∈ ["javascript", "tsx", "typescript"], ∃ profile,
        Bundle.registry.get? language = some profile ∧ compiled.rule ∈ profile.rules ∧
          Query.compile profile.grammar compiled.rule.query = some compiled.query) ∧
      compiled.rule.role = .signatureOnly ∧ twoArrows.Fits twoArrowsSource.length ∧
      ¬ compiled.SparesBodies twoArrowsSource twoArrows := by
  obtain ⟨query, hquery, -, htwo⟩ := exists_compile_arrowRule
  have hfits : twoArrows.Fits twoArrowsSource.length := by decide +kernel
  refine ⟨⟨arrowRule, query⟩, ?_, rfl, hfits, ?_⟩
  · intro language hlanguage
    obtain ⟨profile, hfound, hgrammar, hrule⟩ := arrowRule_bundled language hlanguage
    exact ⟨profile, hfound, hrule, hgrammar ▸ hquery⟩
  · rw [sparesBodies_iff_forall hfits]
    intro hnone
    refine hnone [0] _ ⟨"number", true, ["body"], 29, 30, []⟩
      ⟨"number", true, ["body"], 16, 17, []⟩
      ⟨rfl, _, ⟨htwo ▸ List.mem_cons_of_mem _ List.mem_cons_self, by decide⟩, rfl⟩
      ⟨_, ⟨htwo ▸ List.mem_cons_self, by decide⟩, [0, 1, 2, 2], by decide, rfl⟩ 16
      (by decide) (by decide) ?_
    -- the first body is the digit at offset 16, and it shows
    exact ⟨by decide, 16, 49, by decide, by decide, by decide +kernel, by decide⟩

end CodeOutline
