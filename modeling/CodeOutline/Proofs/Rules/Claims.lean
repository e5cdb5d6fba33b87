/-
  CodeOutline/Proofs/Rules/Claims.lean
  ====================================
  **What a definition claims, and when it can.**

  The matches of a definition depend on spans that nothing but the tree vouches for.  In a tree
  that fits its source they can always be made (`exists_matchesFor`): a signature is only trimmed
  between the start of its definition and that of the body, so it is never read outside the source
  and never ends before it starts.  Of the body nothing is needed, as one that begins outside its
  definition is passed over.

  For many definitions the matches are made one after the other.  They are all made when each can
  be (`claimsOf_of_forall`), and otherwise none are (`claimsOf_error_iff`).
-/
import CodeOutline.Proofs.Tree.Places
import CodeOutline.Rules.Capture

namespace CodeOutline

/-- The spans of all nodes lie inside a source of the given length.  Nothing is said of how they
lie to each other. -/
def Node.Fits (root : Node) (length : Nat) : Prop :=
  ∀ node ∈ root.preorder, 0 ≤ node.start ∧ node.start ≤ node.stop ∧ node.stop ≤ length

instance (root : Node) (length : Nat) : Decidable (root.Fits length) :=
  inferInstanceAs (Decidable
    (∀ node ∈ root.preorder, 0 ≤ node.start ∧ node.start ≤ node.stop ∧ node.stop ≤ length))

/-! ### Signatures -/

theorem exists_byteAt? {source : List UInt8} {i : Int} (hstart : 0 ≤ i)
    (hstop : i < source.length) :
    ∃ b, byteAt? source i = some b := by
  have hlt : i.toNat < source.length := by omega
  exact ⟨source[i.toNat], by rw [byteAt?, if_pos hstart, List.getElem?_eq_getElem hlt]⟩

theorem exists_trimSignature {source : List UInt8} {stop : Int} {count : Nat}
    (hcount : count ≤ stop) (hstop : stop ≤ source.length) :
    ∃ trimmed, trimSignature source stop count = .ok trimmed := by
  induction count generalizing stop with
  | zero => exact ⟨stop, rfl⟩
  | succ count ih =>
    have hinside : 0 ≤ stop - 1 ∧ stop - 1 < source.length := by omega
    obtain ⟨b, hb⟩ := exists_byteAt? hinside.1 hinside.2
    simp only [trimSignature, hb]
    by_cases hblank : isBlankByte b = true
    · rw [if_pos hblank]
      have hrest : count ≤ stop - 1 := by omega
      exact ih hrest (Int.le_of_lt hinside.2)
    · rw [if_neg hblank]
      exact ⟨stop, rfl⟩

/-- Trimming moves the end back, and not by more bytes than it may. -/
theorem trimSignature_bounds {source : List UInt8} {stop trimmed : Int} {count : Nat}
    (htrim : trimSignature source stop count = .ok trimmed) :
    stop - count ≤ trimmed ∧ trimmed ≤ stop := by
  induction count generalizing stop with
  | zero =>
    obtain rfl : stop = trimmed := Except.ok.inj htrim
    omega
  | succ count ih =>
    rw [trimSignature] at htrim
    split at htrim
    · cases htrim
    · split at htrim
      · have := ih htrim
        omega
      · obtain rfl : stop = trimmed := Except.ok.inj htrim
        omega

/-- Trimming goes back to the last byte that is not blank, if it may go so far. -/
theorem lt_trimSignature_iff {source : List UInt8} {stop trimmed : Int} {count : Nat}
    (htrim : trimSignature source stop count = .ok trimmed) {i : Int} (hi : stop - count ≤ i) :
    i < trimmed ↔
      ∃ j b, i ≤ j ∧ j < stop ∧ byteAt? source j = some b ∧ isBlankByte b = false := by
  induction count generalizing stop with
  | zero =>
    obtain rfl : stop = trimmed := Except.ok.inj htrim
    constructor
    · intro hlt
      omega
    · rintro ⟨j, b, hij, hj, -, -⟩
      exact Int.lt_of_le_of_lt hij hj
  | succ count ih =>
    rw [trimSignature] at htrim
    split at htrim
    case h_1 => cases htrim
    case h_2 last hlast =>
      split at htrim
      case isTrue hblank =>
        rw [ih htrim (by omega)]
        constructor
        · rintro ⟨j, b, hij, hj, hb, hshown⟩
          exact ⟨j, b, hij, by omega, hb, hshown⟩
        · rintro ⟨j, b, hij, hj, hb, hshown⟩
          refine ⟨j, b, hij, ?_, hb, hshown⟩
          -- the last byte is blank, so the byte that shows is another one
          by_contra hlate
          obtain rfl : j = stop - 1 := by omega
          rw [hlast, Option.some.injEq] at hb
          rw [hb, hshown] at hblank
          cases hblank
      case isFalse hblank =>
        obtain rfl : stop = trimmed := Except.ok.inj htrim
        constructor
        · intro hlt
          exact ⟨stop - 1, last, by omega, by omega, hlast, eq_false_of_ne_true hblank⟩
        · rintro ⟨j, b, hij, hj, -, -⟩
          exact Int.lt_of_le_of_lt hij hj

theorem exists_signatureEnd {source : List UInt8} {start bodyStart : Int} (hstart : 0 ≤ start)
    (hle : start ≤ bodyStart) (hstop : bodyStart ≤ source.length) :
    ∃ stop, signatureEnd source start bodyStart = .ok stop :=
  exists_trimSignature (by omega) hstop

theorem signatureEnd_bounds {source : List UInt8} {start bodyStart stop : Int}
    (hle : start ≤ bodyStart) (hend : signatureEnd source start bodyStart = .ok stop) :
    start ≤ stop ∧ stop ≤ bodyStart := by
  have := trimSignature_bounds hend
  omega

theorem lt_signatureEnd_iff {source : List UInt8} {start bodyStart stop : Int}
    (hle : start ≤ bodyStart) (hend : signatureEnd source start bodyStart = .ok stop) {i : Int}
    (hi : start ≤ i) :
    i < stop ↔
      ∃ j b, i ≤ j ∧ j < bodyStart ∧ byteAt? source j = some b ∧ isBlankByte b = false :=
  lt_trimSignature_iff hend (by omega)

/-! ### The matches of a definition -/

theorem claim_of_le {start stop : Int} {role : Role} {priority : Int} {kind : String}
    (hstart : 0 ≤ start) (hle : start ≤ stop) :
    claim start stop role priority kind = .ok ⟨start, stop, role, priority, kind, hstart, hle⟩ := by
  rw [claim, Match.ofSpan, dif_pos ⟨hstart, hle⟩]
  rfl

/-- The two sides of a definition that is split, each of them left out where it is empty. -/
theorem splitAtBody_of_signatureEnd {rule : Rule} {node body : Node} {source : List UInt8}
    {stop : Int} (hstart : 0 ≤ node.start) (hle : node.start ≤ stop)
    (hend : signatureEnd source node.start body.start = .ok stop) :
    splitAtBody rule node body source = .ok
      ((if h : node.start < stop then
          [⟨node.start, stop, .signatureOnly, rule.priority, node.kind, hstart, Int.le_of_lt h⟩]
        else []) ++
        (if h : stop < node.stop then
          [⟨stop, node.stop, .body, rule.priority, body.kind, Int.le_trans hstart hle,
            Int.le_of_lt h⟩]
        else [])) := by
  simp only [splitAtBody, hend, bind, Except.bind]
  by_cases hsignature : node.start < stop
  · by_cases hrest : stop < node.stop
    · simp [hsignature, hrest, claim_of_le hstart hle,
        claim_of_le (Int.le_trans hstart hle) (Int.le_of_lt hrest)]
    · simp [hsignature, hrest, claim_of_le hstart hle]
  · by_cases hrest : stop < node.stop
    · simp [hsignature, hrest, claim_of_le (Int.le_trans hstart hle) (Int.le_of_lt hrest)]
    · simp [hsignature, hrest]

theorem exists_splitAtBody {rule : Rule} {node body : Node} {source : List UInt8}
    (hstart : 0 ≤ node.start) (hstop : node.stop ≤ source.length)
    (hafter : node.start ≤ body.start) (hbefore : body.start ≤ node.stop) :
    ∃ claims, splitAtBody rule node body source = .ok claims := by
  obtain ⟨stop, hend⟩ := exists_signatureEnd hstart hafter (Int.le_trans hbefore hstop)
  exact ⟨_, splitAtBody_of_signatureEnd hstart (signatureEnd_bounds hafter hend).1 hend⟩

/-- The body at which a rule splits a definition: the captured one, or else one that its hints
find, if it begins within the definition. -/
def Rule.splitBody? (rule : Rule) (node : Node) (captured : Option Node) : Option Node :=
  if rule.role = .signatureOnly then
    (captured.or (node.findBody rule.hints)).filter fun body =>
      node.start ≤ body.start ∧ body.start ≤ node.stop
  else none

theorem splitBody?_eq_some_iff {rule : Rule} {node body : Node} {captured : Option Node} :
    rule.splitBody? node captured = some body ↔
      rule.role = .signatureOnly ∧ captured.or (node.findBody rule.hints) = some body ∧
        node.start ≤ body.start ∧ body.start ≤ node.stop := by
  simp [Rule.splitBody?]

theorem matchesFor_of_split {rule : Rule} {node body : Node} {source : List UInt8}
    {captured : Option Node} (hsplit : rule.splitBody? node captured = some body) :
    matchesFor rule node source captured = splitAtBody rule node body source := by
  obtain ⟨hrole, hbody, hinside⟩ := splitBody?_eq_some_iff.mp hsplit
  simp only [matchesFor, if_pos hrole, hbody, if_pos hinside]

/-- A definition that is not split is claimed as a whole. -/
theorem matchesFor_of_whole {rule : Rule} {node : Node} {source : List UInt8}
    {captured : Option Node} (hsplit : rule.splitBody? node captured = none)
    (hstart : 0 ≤ node.start) (hle : node.start ≤ node.stop) :
    matchesFor rule node source captured = .ok
      [⟨node.start, node.stop,
        if rule.role = .signatureOnly then .fullDefinition else rule.role, rule.priority, node.kind,
        hstart, hle⟩] := by
  rw [matchesFor]
  by_cases hrole : rule.role = .signatureOnly
  · rw [if_pos hrole, if_pos hrole]
    cases hbody : captured.or (node.findBody rule.hints) with
    | none => simp [claim_of_le hstart hle, bind, Except.bind]
    | some body =>
      have houtside : ¬ (node.start ≤ body.start ∧ body.start ≤ node.stop) := by
        intro hinside
        have hsome := splitBody?_eq_some_iff.mpr ⟨hrole, hbody, hinside⟩
        rw [hsplit] at hsome
        cases hsome
      simp [houtside, claim_of_le hstart hle, bind, Except.bind]
  · simp [hrole, claim_of_le hstart hle, bind, Except.bind]

/-- A definition whose span lies in the source can claim its matches, whatever its body is. -/
theorem exists_matchesFor {rule : Rule} {node : Node} {source : List UInt8}
    (captured : Option Node) (hstart : 0 ≤ node.start) (hle : node.start ≤ node.stop)
    (hstop : node.stop ≤ source.length) :
    ∃ claims, matchesFor rule node source captured = .ok claims := by
  cases hsplit : rule.splitBody? node captured with
  | none => exact ⟨_, matchesFor_of_whole hsplit hstart hle⟩
  | some body =>
    obtain ⟨-, -, hafter, hbefore⟩ := splitBody?_eq_some_iff.mp hsplit
    rw [matchesFor_of_split hsplit]
    exact exists_splitAtBody hstart hstop hafter hbefore

/-! ### Captured definitions -/

theorem mem_preorder_of_mem_definitionsOf {rule : Rule} {root : Node} {captures : List Capture}
    {d : Definition} (hd : d ∈ definitionsOf rule root captures) : d.node ∈ root.preorder := by
  rw [definitionsOf, List.mem_map] at hd
  obtain ⟨node, hnode, rfl⟩ := hd
  obtain ⟨place, -, hplace⟩ := List.mem_filterMap.mp hnode
  exact mem_preorder_of_at? hplace

theorem mem_preorder_of_mem_definitions {compiled : CompiledRule} {root : Node}
    {d : Counted Definition} (hd : d ∈ compiled.definitions root) :
    d.value.node ∈ root.preorder := by
  rw [CompiledRule.definitions, Tally.expand, List.mem_flatMap] at hd
  obtain ⟨captures, -, hd⟩ := hd
  obtain ⟨definition, hdefinition, rfl⟩ := List.mem_map.mp hd
  exact mem_preorder_of_mem_definitionsOf hdefinition

theorem exists_claims_of_fits {root : Node} {source : List UInt8} (hfits : root.Fits source.length)
    {d : Definition} (hd : d.node ∈ root.preorder) : ∃ claims, d.claims source = .ok claims := by
  obtain ⟨hstart, hle, hstop⟩ := hfits d.node hd
  exact exists_matchesFor d.body hstart hle hstop

/-! ### Many definitions -/

/-- The matches of a definition, or none where they cannot be made. -/
def Definition.claimed (source : List UInt8) (d : Definition) : List Match :=
  (d.claims source).toOption.getD []

theorem claimed_of_ok {source : List UInt8} {d : Definition} {claims : List Match}
    (hclaims : d.claims source = .ok claims) : d.claimed source = claims := by
  rw [Definition.claimed, hclaims]
  rfl

theorem claimsOf_of_forall {source : List UInt8} {definitions : Tally Definition}
    (hall : ∀ d ∈ definitions, ∃ claims, d.value.claims source = .ok claims) :
    claimsOf source definitions = .ok (definitions.expand (Definition.claimed source)) := by
  induction definitions with
  | nil => rfl
  | cons d later ih =>
    obtain ⟨⟨claims, hclaims⟩, hlater⟩ := List.forall_mem_cons.mp hall
    have hexpand : Tally.expand (Definition.claimed source) (d :: later) =
        claims.map (fun m => ⟨m, d.ways⟩) ++ Tally.expand (Definition.claimed source) later := by
      rw [Tally.expand, List.flatMap_cons, claimed_of_ok hclaims]
      rfl
    rw [claimsOf, hclaims, ih hlater, hexpand]
    rfl

/-- The matches are refused exactly when some definition cannot claim its own. -/
theorem claimsOf_error_iff {source : List UInt8} {definitions : Tally Definition} :
    (∃ fault, claimsOf source definitions = .error fault) ↔
      ∃ d ∈ definitions, ∃ fault, d.value.claims source = .error fault := by
  constructor
  · rintro ⟨fault, hfault⟩
    by_contra hnone
    have hall : ∀ d ∈ definitions, ∃ claims, d.value.claims source = .ok claims := by
      intro d hd
      cases hclaims : d.value.claims source with
      | ok claims => exact ⟨claims, rfl⟩
      | error fault => exact absurd ⟨d, hd, fault, hclaims⟩ hnone
    rw [claimsOf_of_forall hall] at hfault
    cases hfault
  · rintro ⟨d, hd, fault, hfault⟩
    induction definitions with
    | nil => simp at hd
    | cons first later ih =>
      rw [claimsOf]
      rcases List.mem_cons.mp hd with rfl | hlater
      · rw [hfault]
        exact ⟨fault, rfl⟩
      · cases hfirst : first.value.claims source with
        | error other => exact ⟨other, rfl⟩
        | ok claims =>
          obtain ⟨other, hother⟩ := ih hlater
          rw [hother]
          exact ⟨other, rfl⟩

end CodeOutline
