/-
  CodeOutline/Proofs/Rules/Tiling.lean
  ====================================
  **The matches of a definition tile its span.**

  A definition is claimed as a whole or split in two where its signature ends.  Which of the two,
  and at which body, is said without the search that finds the body: `BodyOf` names the node by
  the order in which it is looked for, and `IsSplitPoint` the place from which on nothing shows
  before the body.

  A definition that is split claims the two sides of the split point, each only where it is not
  empty (`exists_matchesFor_split`).  Trimming reads the byte before the body first, so it fails on
  this byte when the body begins beyond the source, and never later (`matchesFor_eq_error_iff`).
-/
import CodeOutline.Proofs.Coverage.Coalesce
import CodeOutline.Proofs.Rules.Claims

namespace CodeOutline

/-! ### Where a definition is split -/

/-- The body of a definition: the captured node, else the child under the first hint that names a
field, else the first child of a kind among the hints. -/
inductive BodyOf (node : Node) (hints : List String) : Option Node → Node → Prop
  | captured (body : Node) : BodyOf node hints (some body) body
  | field {earlier later : List String} {hint : String} {body : Node}
    (hhints : hints = earlier ++ hint :: later) (hchild : node.child? hint = some body)
    (hfirst : ∀ other ∈ earlier, node.child? other = none) : BodyOf node hints none body
  | kind {earlier later : List Node} {body : Node}
    (hfields : ∀ hint ∈ hints, node.child? hint = none)
    (hchildren : node.children = earlier ++ body :: later) (hkind : body.kind ∈ hints)
    (hfirst : ∀ child ∈ earlier, child.kind ∉ hints) : BodyOf node hints none body

/-- The rule asks for the signature of a definition whose body begins within it. -/
structure SplitsAt (rule : Rule) (node : Node) (captured : Option Node) (body : Node) : Prop where
  role : rule.role = .signatureOnly
  isBody : BodyOf node rule.hints captured body
  after : node.start ≤ body.start
  before : body.start ≤ node.stop

/-- The first offset from `start` on after which nothing shows up to the body. -/
structure IsSplitPoint (source : List UInt8) (start bodyStart stop : Int) : Prop where
  start_le : start ≤ stop
  blank : allBlank (slice source stop bodyStart) = true
  least : ∀ i, start ≤ i → allBlank (slice source i bodyStart) = true → stop ≤ i

theorem IsSplitPoint.unique {source : List UInt8} {start bodyStart a b : Int}
    (ha : IsSplitPoint source start bodyStart a) (hb : IsSplitPoint source start bodyStart b) :
    a = b :=
  Int.le_antisymm (ha.least b hb.start_le hb.blank) (hb.least a ha.start_le ha.blank)

theorem findBody_eq_some_iff {node body : Node} {hints : List String} :
    node.findBody hints = some body ↔ BodyOf node hints none body := by
  rw [Node.findBody, Option.or_eq_some_iff, List.findSome?_eq_some_iff, List.findSome?_eq_none_iff,
    List.find?_eq_some_iff_append]
  constructor
  · intro hfound
    rcases hfound with ⟨earlier, hint, later, hhints, hchild, hfirst⟩ |
      ⟨hfields, hkind, earlier, later, hchildren, hfirst⟩
    · exact .field hhints hchild hfirst
    · exact .kind hfields hchildren (by simpa using hkind) (by simpa using hfirst)
  · intro hbody
    cases hbody with
    | field hhints hchild hfirst => exact .inl ⟨_, _, _, hhints, hchild, hfirst⟩
    | kind hfields hchildren hkind hfirst =>
      exact .inr ⟨hfields, by simpa using hkind, _, _, hchildren, by simpa using hfirst⟩

theorem bodyOf_iff {node body : Node} {hints : List String} {captured : Option Node} :
    BodyOf node hints captured body ↔ captured.or (node.findBody hints) = some body := by
  cases captured with
  | none => rw [Option.none_or, findBody_eq_some_iff]
  | some node' =>
    rw [Option.some_or, Option.some.injEq]
    constructor
    · intro hbody
      cases hbody
      rfl
    · intro hsame
      rw [hsame]
      exact .captured body

theorem splitsAt_iff {rule : Rule} {node body : Node} {captured : Option Node} :
    SplitsAt rule node captured body ↔ rule.splitBody? node captured = some body := by
  rw [splitBody?_eq_some_iff, ← bodyOf_iff]
  constructor
  · intro hsplits
    exact ⟨hsplits.role, hsplits.isBody, hsplits.after, hsplits.before⟩
  · intro hsplits
    exact ⟨hsplits.1, hsplits.2.1, hsplits.2.2.1, hsplits.2.2.2⟩

/-! ### The end of a signature -/

section

variable {source : List UInt8} {start bodyStart stop : Int}

/-- The end of a signature is the split point. -/
theorem isSplitPoint_of_signatureEnd (hstart : 0 ≤ start) (hle : start ≤ bodyStart)
    (hend : signatureEnd source start bodyStart = .ok stop) :
    IsSplitPoint source start bodyStart stop := by
  have hblank : ∀ i, start ≤ i → (stop ≤ i ↔ allBlank (slice source i bodyStart) = true) := by
    intro i hi
    rw [← Int.not_lt, lt_signatureEnd_iff hle hend hi, allBlank, List.all_eq_true]
    simp only [mem_slice_iff (Int.le_trans hstart hi) (Int.le_trans hstart hle)]
    constructor
    · intro hnone b hb
      obtain ⟨j, hij, hj, hbyte⟩ := hb
      by_contra hshows
      exact hnone ⟨j, b, hij, hj, hbyte, eq_false_of_ne_true hshows⟩
    · intro hall hsome
      obtain ⟨j, b, hij, hj, hbyte, hshows⟩ := hsome
      rw [hall b ⟨j, hij, hj, hbyte⟩] at hshows
      cases hshows
  have hbounds := signatureEnd_bounds hle hend
  exact ⟨hbounds.1, (hblank stop hbounds.1).mp (Int.le_refl stop),
    fun i hi => (hblank i hi).mpr⟩

/-- A signature that is not empty ends in a byte that shows. -/
theorem exists_last_of_signatureEnd (hle : start ≤ bodyStart)
    (hend : signatureEnd source start bodyStart = .ok stop) (hfull : start < stop) :
    ∃ b, byteAt? source (stop - 1) = some b ∧ isBlankByte b = false := by
  obtain ⟨j, b, hlast, hj, hbyte, hshows⟩ :=
    (lt_signatureEnd_iff (i := stop - 1) hle hend (by omega)).mp (by omega)
  -- a byte that shows lies before the end of the signature
  have hinside : j < stop :=
    (lt_signatureEnd_iff hle hend (by omega)).mpr ⟨j, b, Int.le_refl j, hj, hbyte, hshows⟩
  obtain rfl : j = stop - 1 := by omega
  exact ⟨b, hbyte, hshows⟩

theorem signatureEnd_beyond (hstart : 0 ≤ start) (hafter : start < bodyStart)
    (hbeyond : source.length < bodyStart) :
    signatureEnd source start bodyStart = .error (.outsideSource (bodyStart - 1)) := by
  obtain ⟨count, hcount⟩ : ∃ count, (bodyStart - start).toNat = count + 1 :=
    ⟨(bodyStart - start).toNat - 1, by omega⟩
  have hnone : byteAt? source (bodyStart - 1) = none := by
    rw [byteAt?_of_nonneg (by omega)]
    exact List.getElem?_eq_none (by omega)
  rw [signatureEnd, hcount, trimSignature, hnone]

/-- A signature has no end just when it is not empty and its body begins beyond the source. -/
theorem signatureEnd_eq_error_iff (hstart : 0 ≤ start) (hle : start ≤ bodyStart)
    {fault : CaptureFault} :
    signatureEnd source start bodyStart = .error fault ↔
      start < bodyStart ∧ source.length < bodyStart ∧ fault = .outsideSource (bodyStart - 1) := by
  constructor
  · intro herror
    by_cases hempty : start = bodyStart
    · rw [signatureEnd, hempty, Int.sub_self] at herror
      cases herror
    · have hafter : start < bodyStart := by omega
      by_cases hinside : bodyStart ≤ source.length
      · obtain ⟨stop, hend⟩ := exists_signatureEnd hstart hle hinside
        rw [hend] at herror
        cases herror
      · have hbeyond := Int.not_le.mp hinside
        rw [signatureEnd_beyond hstart hafter hbeyond] at herror
        exact ⟨hafter, hbeyond, (Except.error.inj herror).symm⟩
  · intro hfault
    obtain ⟨hafter, hbeyond, rfl⟩ := hfault
    exact signatureEnd_beyond hstart hafter hbeyond

end

/-! ### What a definition claims -/

/-- What a match says, without the proofs that its span is one. -/
structure Tile where
  start : Int
  stop : Int
  role : Role
  priority : Int
  kind : String
deriving DecidableEq, Repr

def Match.tile (m : Match) : Tile :=
  ⟨m.start, m.stop, m.role, m.priority, m.kind⟩

/-- The span of a tile, and whether it is asked to be kept. -/
def Tile.range (tile : Tile) : Range :=
  ⟨tile.start, tile.stop, tile.role.keeps⟩

/-- The signature before the split point and the body after it, each where it is not empty. -/
def splitTiles (rule : Rule) (node body : Node) (stop : Int) : List Tile :=
  (if node.start < stop then
      [⟨node.start, stop, .signatureOnly, rule.priority, node.kind⟩] else []) ++
    if stop < node.stop then [⟨stop, node.stop, .body, rule.priority, body.kind⟩] else []

/-- The definition as a whole, in the role of the rule; a signature without a body is all of the
definition. -/
def wholeTile (rule : Rule) (node : Node) : Tile :=
  ⟨node.start, node.stop, if rule.role = .signatureOnly then .fullDefinition else rule.role,
    rule.priority, node.kind⟩

theorem adjoin_splitTiles (rule : Rule) {node : Node} (body : Node) {stop : Int}
    (hsignature : node.start ≤ stop) (hrest : stop ≤ node.stop) :
    Adjoin node.start node.stop ((splitTiles rule node body stop).map Tile.range) := by
  unfold splitTiles
  by_cases hfull : node.start < stop
  · by_cases hmore : stop < node.stop
    · simp [hfull, hmore, Tile.range, Adjoin, hsignature, hrest]
    · have hlast : stop = node.stop := by omega
      simp [hlast ▸ hfull, hlast, Tile.range, Adjoin, hlast ▸ hsignature]
  · have hfirst : node.start = stop := by omega
    by_cases hmore : stop < node.stop
    · simp [hfirst, hmore, Tile.range, Adjoin, hrest]
    · have hlast : stop = node.stop := by omega
      simp [hfirst, hlast, Adjoin]

section

variable {rule : Rule} {node : Node} {source : List UInt8} {captured : Option Node}
  (hstart : 0 ≤ node.start)

include hstart

theorem tile_splitAtBody {body : Node} {stop : Int} (hafter : node.start ≤ body.start)
    (hend : signatureEnd source node.start body.start = .ok stop) :
    ∃ claims, splitAtBody rule node body source = .ok claims ∧
      claims.map Match.tile = splitTiles rule node body stop := by
  have hle := (signatureEnd_bounds hafter hend).1
  refine ⟨_, splitAtBody_of_signatureEnd hstart hle hend, ?_⟩
  rw [splitTiles, List.map_append]
  congr 1 <;> split <;> rfl

omit hstart in
theorem splitAtBody_of_error {body : Node} {fault : CaptureFault}
    (hend : signatureEnd source node.start body.start = .error fault) :
    splitAtBody rule node body source = .error fault := by
  rw [splitAtBody, hend]
  rfl

/-- A definition that is split claims both sides of the split point. -/
theorem exists_matchesFor_split {body : Node} (hsplits : SplitsAt rule node captured body)
    (hinside : node.start < body.start → body.start ≤ source.length) :
    ∃ stop claims, IsSplitPoint source node.start body.start stop ∧
      matchesFor rule node source captured = .ok claims ∧
      claims.map Match.tile = splitTiles rule node body stop ∧ stop ≤ body.start ∧
      (node.start < stop → ∃ b, byteAt? source (stop - 1) = some b ∧ isBlankByte b = false) := by
  cases hend : signatureEnd source node.start body.start with
  | error fault =>
    obtain ⟨hafter, hbeyond, -⟩ := (signatureEnd_eq_error_iff hstart hsplits.after).mp hend
    have := hinside hafter
    omega
  | ok stop =>
    obtain ⟨claims, hclaims, htiles⟩ := tile_splitAtBody hstart hsplits.after hend
    refine ⟨stop, claims, isSplitPoint_of_signatureEnd hstart hsplits.after hend, ?_, htiles,
      (signatureEnd_bounds hsplits.after hend).2, exists_last_of_signatureEnd hsplits.after hend⟩
    rw [matchesFor_of_split (splitsAt_iff.mp hsplits), hclaims]

variable (hle : node.start ≤ node.stop)

include hle

/-- A definition that is not split makes one claim. -/
theorem exists_matchesFor_whole (hwhole : ∀ body, ¬ SplitsAt rule node captured body) :
    ∃ m, matchesFor rule node source captured = .ok [m] ∧ m.tile = wholeTile rule node := by
  have hnone : rule.splitBody? node captured = none := by
    rw [Option.eq_none_iff_forall_ne_some]
    intro body hbody
    exact hwhole body (splitsAt_iff.mpr hbody)
  exact ⟨_, matchesFor_of_whole hnone hstart hle, rfl⟩

/-- Nothing is claimed just when the definition would be split and the body begins beyond the
source. -/
theorem matchesFor_eq_error_iff {fault : CaptureFault} :
    matchesFor rule node source captured = .error fault ↔
      ∃ body, SplitsAt rule node captured body ∧ node.start < body.start ∧
        source.length < body.start ∧ fault = .outsideSource (body.start - 1) := by
  constructor
  · intro herror
    by_cases hsplit : ∃ body, SplitsAt rule node captured body
    · obtain ⟨body, hsplits⟩ := hsplit
      refine ⟨body, hsplits, (signatureEnd_eq_error_iff hstart hsplits.after).mp ?_⟩
      rw [matchesFor_of_split (splitsAt_iff.mp hsplits)] at herror
      cases hend : signatureEnd source node.start body.start with
      | error other =>
        rw [splitAtBody_of_error hend] at herror
        exact congrArg Except.error (Except.error.inj herror)
      | ok stop =>
        obtain ⟨claims, hclaims, -⟩ :
            ∃ claims, splitAtBody rule node body source = .ok claims ∧ _ :=
          tile_splitAtBody hstart hsplits.after hend
        rw [hclaims] at herror
        cases herror
    · obtain ⟨m, hm, -⟩ : ∃ m, matchesFor rule node source captured = .ok [m] ∧ _ :=
        exists_matchesFor_whole hstart hle (not_exists.mp hsplit)
      rw [hm] at herror
      cases herror
  · intro hsplit
    obtain ⟨body, hsplits, hafter, hbeyond, rfl⟩ := hsplit
    rw [matchesFor_of_split (splitsAt_iff.mp hsplits)]
    exact splitAtBody_of_error (signatureEnd_beyond hstart hafter hbeyond)

theorem tiles_of_matchesFor {claims : List Match}
    (hclaims : matchesFor rule node source captured = .ok claims) :
    claims.map Match.tile = [wholeTile rule node] ∨
      ∃ body stop, node.start ≤ stop ∧ stop ≤ node.stop ∧
        claims.map Match.tile = splitTiles rule node body stop := by
  by_cases hsplit : ∃ body, SplitsAt rule node captured body
  · obtain ⟨body, hsplits⟩ := hsplit
    have hinside : node.start < body.start → body.start ≤ source.length := by
      intro hafter
      by_contra hbeyond
      have herror := (matchesFor_eq_error_iff hstart hle).mpr
        ⟨body, hsplits, hafter, Int.not_le.mp hbeyond, rfl⟩
      rw [hclaims] at herror
      cases herror
    obtain ⟨stop, split, hpoint, hok, htiles, hbefore, -⟩ :=
      exists_matchesFor_split hstart hsplits hinside
    rw [hclaims, Except.ok.injEq] at hok
    rw [hok]
    exact .inr ⟨body, stop, hpoint.start_le, Int.le_trans hbefore hsplits.before, htiles⟩
  · obtain ⟨m, hok, htile⟩ : ∃ m, matchesFor rule node source captured = .ok [m] ∧ _ :=
      exists_matchesFor_whole hstart hle (not_exists.mp hsplit)
    rw [hclaims, Except.ok.injEq] at hok
    rw [hok, List.map_singleton, htile]
    exact .inl rfl

theorem adjoin_of_matchesFor {claims : List Match}
    (hclaims : matchesFor rule node source captured = .ok claims) :
    Adjoin node.start node.stop (claims.map fun m => m.tile.range) := by
  have hranges : (claims.map fun m => m.tile.range) =
      (claims.map Match.tile).map Tile.range := by simp
  rw [hranges]
  rcases tiles_of_matchesFor hstart hle hclaims with htiles | ⟨body, stop, hfrom, huntil, htiles⟩
  · rw [htiles]
    exact ⟨rfl, hle, rfl⟩
  · rw [htiles]
    exact adjoin_splitTiles rule body hfrom huntil

theorem priority_of_matchesFor {claims : List Match}
    (hclaims : matchesFor rule node source captured = .ok claims) :
    ∀ m ∈ claims, m.priority = rule.priority := by
  have hpriority : ∀ tile ∈ claims.map Match.tile, tile.priority = rule.priority := by
    rcases tiles_of_matchesFor hstart hle hclaims with htiles | ⟨body, stop, -, -, htiles⟩
    · rw [htiles]
      simp [wholeTile]
    · rw [htiles, splitTiles]
      intro tile htile
      rcases List.mem_append.mp htile with hsignature | hrest
      · split at hsignature <;> simp_all
      · split at hrest <;> simp_all
  intro m hm
  exact hpriority _ (List.mem_map_of_mem hm)

end

/-- **The matches of a definition tile its span**, in the priority of the rule.  A signature whose
body begins within the definition is split off at the split point, and the definition is claimed
as a whole otherwise.  Nothing is claimed just when the bytes before the body, from its start on,
reach beyond the source. -/
theorem matchesFor_tiles (rule : Rule) (node : Node) (source : List UInt8)
    (captured : Option Node) (hstart : 0 ≤ node.start) (hle : node.start ≤ node.stop) :
    (∀ claims, matchesFor rule node source captured = .ok claims →
        (∀ m ∈ claims, m.priority = rule.priority) ∧
          Adjoin node.start node.stop (claims.map fun m => m.tile.range)) ∧
      (∀ body, SplitsAt rule node captured body →
        (node.start < body.start → body.start ≤ source.length) →
          ∃ stop claims, IsSplitPoint source node.start body.start stop ∧
            matchesFor rule node source captured = .ok claims ∧
            claims.map Match.tile = splitTiles rule node body stop ∧
            (node.start < stop →
              ∃ b, byteAt? source (stop - 1) = some b ∧ isBlankByte b = false)) ∧
      ((∀ body, ¬ SplitsAt rule node captured body) →
        ∃ m, matchesFor rule node source captured = .ok [m] ∧ m.tile = wholeTile rule node) ∧
      ∀ fault, matchesFor rule node source captured = .error fault ↔
        ∃ body, SplitsAt rule node captured body ∧ node.start < body.start ∧
          source.length < body.start ∧ fault = .outsideSource (body.start - 1) := by
  refine ⟨?_, ?_, ?_, ?_⟩
  · intro claims hclaims
    exact ⟨priority_of_matchesFor hstart hle hclaims, adjoin_of_matchesFor hstart hle hclaims⟩
  · intro body hsplits hinside
    obtain ⟨stop, claims, hpoint, hclaims, htiles, -, hlast⟩ :=
      exists_matchesFor_split hstart hsplits hinside
    exact ⟨stop, claims, hpoint, hclaims, htiles, hlast⟩
  · exact exists_matchesFor_whole hstart hle
  · intro fault
    exact matchesFor_eq_error_iff hstart hle

/-- A rule whose second hint is the kind of a body. -/
def hintedRule : Rule :=
  ⟨.signatureOnly, 7, ["suite", "block"], "(function) @definition"⟩

def hintedBody : Node :=
  ⟨"block", true, [], 7, 10, []⟩

def hintedNode : Node :=
  ⟨"function", true, [], 1, 10, [⟨"identifier", true, ["name"], 1, 2, []⟩, hintedBody]⟩

/-- A tab, a line feed and a space stand between the signature and the body. -/
def hintedSource : List UInt8 :=
  [32, 102, 40, 41, 9, 10, 32, 123, 49, 125]

theorem splitsAt_hinted : SplitsAt hintedRule hintedNode none hintedBody :=
  splitsAt_iff.mpr rfl

theorem matchesFor_tiles_hinted :
    0 ≤ hintedNode.start ∧ hintedNode.start ≤ hintedNode.stop ∧
      SplitsAt hintedRule hintedNode none hintedBody ∧
      hintedBody.start ≤ hintedSource.length ∧ IsSplitPoint hintedSource 1 7 4 ∧
      ∃ claims, matchesFor hintedRule hintedNode hintedSource none = .ok claims ∧
        claims.map Match.tile =
          [⟨1, 4, .signatureOnly, 7, "function"⟩, ⟨4, 10, .body, 7, "block"⟩] := by
  have hpoint : IsSplitPoint hintedSource 1 7 4 := by
    refine ⟨by decide, by decide, fun i hi hblank => ?_⟩
    by_contra hbefore
    have hcases : i = 1 ∨ i = 2 ∨ i = 3 := by omega
    rcases hcases with rfl | rfl | rfl <;> exact absurd hblank (by decide)
  have hinside : hintedBody.start ≤ hintedSource.length := by decide
  obtain ⟨-, hsplit, -, -⟩ :=
    matchesFor_tiles hintedRule hintedNode hintedSource none (by decide) (by decide)
  obtain ⟨stop, claims, hstop, hclaims, htiles, -⟩ :=
    hsplit hintedBody splitsAt_hinted fun _ => hinside
  rw [hstop.unique hpoint] at htiles
  exact ⟨by decide, by decide, splitsAt_hinted, hinside, hpoint, claims, hclaims,
    htiles.trans (by decide)⟩

/-- A body that begins after its definition does is no fault as long as it begins in the source. -/
theorem not_error_iff_splitsAt_hinted :
    ¬ ((∃ fault, matchesFor hintedRule hintedNode hintedSource none = .error fault) ↔
      ∃ body, SplitsAt hintedRule hintedNode none body ∧ hintedNode.start < body.start) := by
  intro hiff
  obtain ⟨fault, hfault⟩ := hiff.mpr ⟨hintedBody, splitsAt_hinted, by decide⟩
  have hclaims : ∃ claims, matchesFor hintedRule hintedNode hintedSource none = .ok claims :=
    ⟨_, rfl⟩
  obtain ⟨claims, hok⟩ := hclaims
  rw [hfault] at hok
  cases hok

end CodeOutline
