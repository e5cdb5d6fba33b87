/-
  CodeOutline/Proofs/Coverage/Monotone.lean
  =========================================
  **Who asks for more keeps what was kept, and a match decides only where it lies.**

  A new match may have any priority, so it may take the decision of a byte away from the matches
  that had it.  When it asks for its span to be kept, no byte is lost by that: whoever had kept the
  byte is still there, and only bodies can stand against it.  `Eases` lists the changes of which
  this is true, and `keptAt_of_replaced` is the one argument behind all of them but the last: a
  keeping match stays at least as strong as it was, and a body is new only below what covered the
  byte before.

  The rule for a line asks nothing but whether bytes are kept, so lines follow bytes
  (`keptLine_mono`), through any number of changes (`decidesLine_of_changes`).  For the same reason
  a match has no say over a line with which it shares no byte (`decidesLine_apart_iff`).
-/
import CodeOutline.Proofs.Coverage.LineRule
import Mathlib.Logic.Relation

namespace CodeOutline

/-- What is asked of a source: its matches, and what becomes of bytes outside them. -/
structure Demand where
  claims : List Match
  retain : Bool

/-- The line partition that a source gets under a demand. -/
def Demand.ranges (demand : Demand) (source : List UInt8) : List Range :=
  resolve source demand.claims demand.retain

/-- A change that asks for more to be kept, or for less to be elided. -/
inductive Eases : Demand → Demand → Prop
  | keeping (before after : List Match) (retain : Bool) {m : Match} (hrole : m.role ≠ .body) :
    Eases ⟨before ++ after, retain⟩ ⟨before ++ m :: after, retain⟩
  | dropBody (before after : List Match) (retain : Bool) {m : Match} (hrole : m.role = .body) :
    Eases ⟨before ++ m :: after, retain⟩ ⟨before ++ after, retain⟩
  | promote (before after : List Match) (retain : Bool) {m : Match} {role : Role}
    (hbody : m.role = .body) (hrole : role ≠ .body) :
    Eases ⟨before ++ m :: after, retain⟩ ⟨before ++ { m with role } :: after, retain⟩
  | raise (before after : List Match) (retain : Bool) {m : Match} {priority : Int}
    (hrole : m.role ≠ .body) (hpriority : m.priority ≤ priority) :
    Eases ⟨before ++ m :: after, retain⟩ ⟨before ++ { m with priority } :: after, retain⟩
  | retainUnclaimed (claims : List Match) : Eases ⟨claims, false⟩ ⟨claims, true⟩

/-! ### Bytes -/

/-- A byte stays kept when its keeping matches stay as strong and its bodies get no stronger. -/
theorem keptAt_of_raised {retain : Bool} {as bs : List Match} {i : Int}
    (hkeeping : ∀ m ∈ as, m.role ≠ .body → m.covers i = true →
      ∃ n ∈ bs, n.role ≠ .body ∧ n.covers i = true ∧ m.priority ≤ n.priority)
    (hbodies : ∀ b ∈ bs, b.role = .body → b.covers i = true →
      ∃ a ∈ as, a.covers i = true ∧ b.priority ≤ a.priority)
    (hkept : KeptAt retain as i) : KeptAt retain bs i := by
  unfold KeptAt at hkept
  rcases hkept with ⟨hnone, hretain⟩ | ⟨m, hm, hcovers, hrole, hhighest⟩
  · -- no body covers the byte now, as nothing covered it before
    have hfree : ∀ b ∈ bs, b.covers i = true → b.role ≠ .body := by
      intro b hb hbCovers hbody
      obtain ⟨a, ha, haCovers, -⟩ := hbodies b hb hbody hbCovers
      rw [hnone a ha] at haCovers
      cases haCovers
    by_cases hclaimed : ∃ n ∈ bs, n.covers i = true
    · obtain ⟨n, hn, hnCovers⟩ := hclaimed
      apply keptAt_of_keeping retain hn (hfree n hn hnCovers) hnCovers
      intro b hb hbody hbCovers
      exact absurd hbody (hfree b hb hbCovers)
    · exact .inl ⟨by simpa using hclaimed, hretain⟩
  · obtain ⟨n, hn, hnRole, hnCovers, hle⟩ := hkeeping m hm hrole hcovers
    apply keptAt_of_keeping retain hn hnRole hnCovers
    intro b hb hbody hbCovers
    obtain ⟨a, ha, haCovers, hbelow⟩ := hbodies b hb hbody hbCovers
    calc b.priority ≤ a.priority := hbelow
      _ ≤ m.priority := hhighest a ha haCovers
      _ ≤ n.priority := hle

/-- It is enough to compare what is taken out of a list of matches with what is put in there. -/
theorem keptAt_of_replaced {retain : Bool} {i : Int} (before after old new : List Match)
    (hkeeping : ∀ m ∈ old, m.role ≠ .body → m.covers i = true →
      ∃ n ∈ new, n.role ≠ .body ∧ n.covers i = true ∧ m.priority ≤ n.priority)
    (hbodies : ∀ b ∈ new, b.role = .body → b.covers i = true →
      ∃ a ∈ old, a.covers i = true ∧ b.priority ≤ a.priority)
    (hkept : KeptAt retain (before ++ (old ++ after)) i) :
    KeptAt retain (before ++ (new ++ after)) i := by
  apply keptAt_of_raised _ _ hkept
  · intro m hm hrole hcovers
    by_cases hold : m ∈ old
    · obtain ⟨n, hn, hsays⟩ := hkeeping m hold hrole hcovers
      exact ⟨n, by simp [hn], hsays⟩
    · have hstays : m ∈ before ∨ m ∈ after := by simpa [hold] using hm
      exact ⟨m, by simp only [List.mem_append]; tauto, hrole, hcovers, Int.le_refl _⟩
  · intro b hb hbody hcovers
    by_cases hnew : b ∈ new
    · obtain ⟨a, ha, hsays⟩ := hbodies b hnew hbody hcovers
      exact ⟨a, by simp [ha], hsays⟩
    · have hstood : b ∈ before ∨ b ∈ after := by simpa [hnew] using hb
      exact ⟨b, by simp only [List.mem_append]; tauto, hcovers, Int.le_refl _⟩

/-- **No change that asks for more loses a byte.** -/
theorem keptAt_of_eases {demand eased : Demand} (heases : Eases demand eased) {i : Int}
    (hkept : KeptAt demand.retain demand.claims i) : KeptAt eased.retain eased.claims i := by
  cases heases with
  | @keeping before after retain m hrole =>
    apply keptAt_of_replaced before after [] [m] (by simp) _ hkept
    intro b hb hbody
    rw [List.mem_singleton.mp hb] at hbody
    exact absurd hbody hrole
  | @dropBody before after retain m hrole =>
    apply keptAt_of_replaced before after [m] [] _ (by simp) hkept
    intro n hn hkeeps
    rw [List.mem_singleton.mp hn] at hkeeps
    exact absurd hrole hkeeps
  | @promote before after retain m role hbody hrole =>
    apply keptAt_of_replaced before after [m] [{ m with role }] _ _ hkept
    · intro n hn hkeeps
      rw [List.mem_singleton.mp hn] at hkeeps
      exact absurd hbody hkeeps
    · intro b hb hstill
      rw [List.mem_singleton.mp hb] at hstill
      exact absurd hstill hrole
  | @raise before after retain m priority hrole hpriority =>
    apply keptAt_of_replaced before after [m] [{ m with priority }] _ _ hkept
    · intro n hn hkeeps hcovers
      rw [List.mem_singleton.mp hn] at hcovers ⊢
      exact ⟨_, List.mem_singleton_self _, hrole, hcovers, hpriority⟩
    · intro b hb hbody
      rw [List.mem_singleton.mp hb] at hbody
      exact absurd hbody hrole
  | retainUnclaimed claims =>
    rcases hkept with ⟨-, hretain⟩ | hclaimed
    · cases hretain
    · exact .inr hclaimed

/-- A match decides no byte that it does not cover. -/
theorem keptAt_apart_iff {retain : Bool} {m : Match} {i : Int} (before after : List Match)
    (hapart : m.covers i = false) :
    KeptAt retain (before ++ m :: after) i ↔ KeptAt retain (before ++ after) i := by
  apply keptAt_congr_of_mem
  intro other hcovers
  have hother : other ≠ m := by
    intro hsame
    rw [hsame, hapart] at hcovers
    cases hcovers
  simp [hother]

/-! ### Lines -/

/-- The rule for a line only gains from bytes that are kept. -/
theorem keptLine_mono {keep keep' : Int → Prop} {start : Int} {line : List UInt8}
    (hmore : ∀ i, keep i → keep' i) (hkept : KeptLine keep start line) :
    KeptLine keep' start line := by
  rcases hkept with ⟨k, hshows, hk⟩ | ⟨hblank, k, hk⟩
  · exact .inl ⟨k, hshows, hmore _ hk⟩
  · exact .inr ⟨hblank, k, hmore _ hk⟩

section

variable {source : List UInt8} {line : Line} (hline : line ∈ linesOf source)

include hline

theorem decidesLine_of_eases {demand eased : Demand} (heases : Eases demand eased)
    (hkept : DecidesLine (demand.ranges source) line true) :
    DecidesLine (eased.ranges source) line true := by
  rw [Demand.ranges, decidesLine_resolve_iff hline, decide_eq_true_iff] at hkept ⊢
  exact keptLine_mono (fun _ => keptAt_of_eases heases) hkept

theorem decidesLine_of_changes {demand eased : Demand}
    (hchanges : Relation.ReflTransGen Eases demand eased)
    (hkept : DecidesLine (demand.ranges source) line true) :
    DecidesLine (eased.ranges source) line true := by
  induction hchanges with
  | refl => exact hkept
  | tail _ hlast ih => exact decidesLine_of_eases hline hlast ih

theorem decidesLine_apart_iff {m : Match}
    (hapart : ∀ i, line.start ≤ i → i < line.stop → m.covers i = false)
    (before after : List Match) (retain keep : Bool) :
    DecidesLine (resolve source (before ++ m :: after) retain) line keep ↔
      DecidesLine (resolve source (before ++ after) retain) line keep := by
  have hsame : KeptLine (KeptAt retain (before ++ m :: after)) line.start line.bytes ↔
      KeptLine (KeptAt retain (before ++ after)) line.start line.bytes :=
    keptLine_congr fun i hle hlt => keptAt_apart_iff before after (hapart i hle hlt)
  simp only [decidesLine_resolve_iff hline, hsame]

/-- **Resolution is monotone and local.**  No number of changes that ask for more turns a kept line
into an elided one, and a match that shares no byte with a line has no say over it. -/
theorem resolve_monotone_local :
    (∀ demand eased, Relation.ReflTransGen Eases demand eased →
        DecidesLine (demand.ranges source) line true →
          DecidesLine (eased.ranges source) line true ∧
            ¬ DecidesLine (eased.ranges source) line false) ∧
      ∀ (m : Match) (before after : List Match) (retain keep : Bool),
        (∀ i, line.start ≤ i → i < line.stop → m.covers i = false) →
          (DecidesLine (resolve source (before ++ m :: after) retain) line keep ↔
            DecidesLine (resolve source (before ++ after) retain) line keep) := by
  constructor
  · intro demand eased hchanges hkept
    have hstill := decidesLine_of_changes hline hchanges hkept
    refine ⟨hstill, fun helided => ?_⟩
    rw [Demand.ranges, decidesLine_resolve_iff hline] at hstill helided
    rw [hstill] at helided
    cases helided
  · intro m before after retain keep hapart
    exact decidesLine_apart_iff hline hapart before after retain keep

end

/-- Three lines, the second of which is blank. -/
def threeLines : List UInt8 := [97, 98, 99, 10, 32, 10, 100, 10]

/-- A body over the second line and the start of the third, and a definition that keeps one blank
of the second. -/
def blankKept : Demand :=
  ⟨[⟨4, 7, .body, 10, "block", by decide, by decide⟩,
    ⟨4, 5, .fullDefinition, 10, "pass", by decide, by decide⟩], false⟩

/-- The definition is raised above the body, and the body is promoted to a signature. -/
def blankRaised : Demand :=
  ⟨[⟨4, 7, .signatureOnly, 10, "block", by decide, by decide⟩,
    ⟨4, 5, .fullDefinition, 12, "pass", by decide, by decide⟩], false⟩

theorem resolve_monotone_local_blank :
    (⟨4, [32, 10]⟩ : Line) ∈ linesOf threeLines ∧
      Relation.ReflTransGen Eases blankKept blankRaised ∧
      DecidesLine (blankKept.ranges threeLines) ⟨4, [32, 10]⟩ true ∧
      DecidesLine (blankRaised.ranges threeLines) ⟨4, [32, 10]⟩ true ∧
      (∀ i : Int, 4 ≤ i → i < 6 →
        (⟨6, 9, .body, 20, "block", by decide, by decide⟩ : Match).covers i = false) ∧
      DecidesLine (resolve threeLines
        (⟨6, 9, .body, 20, "block", by decide, by decide⟩ :: blankKept.claims) false)
        ⟨4, [32, 10]⟩ true := by
  have hline : (⟨4, [32, 10]⟩ : Line) ∈ linesOf threeLines := by decide
  have hchanges : Relation.ReflTransGen Eases blankKept blankRaised :=
    .tail (.single (.raise (blankKept.claims.take 1) [] false (by decide)
      (show (10 : Int) ≤ 12 by decide))) (.promote [] _ false rfl (by decide))
  have hkept : DecidesLine (blankKept.ranges threeLines) ⟨4, [32, 10]⟩ true :=
    (decidesLine_resolve_iff hline _ _ _).mpr (by decide +kernel)
  have hapart : ∀ i : Int, 4 ≤ i → i < 6 →
      (⟨6, 9, .body, 20, "block", by decide, by decide⟩ : Match).covers i = false := by
    intro i _ hlt
    simp [Match.covers]
    omega
  obtain ⟨hmonotone, hlocal⟩ := resolve_monotone_local hline
  exact ⟨hline, hchanges, hkept, (hmonotone _ _ hchanges hkept).1, hapart,
    (hlocal _ [] blankKept.claims false true hapart).mpr hkept⟩

end CodeOutline
