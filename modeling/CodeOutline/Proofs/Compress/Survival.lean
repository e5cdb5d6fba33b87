/-
  CodeOutline/Proofs/Compress/Survival.lean
  =========================================
  **What survives the compression of a file, and what does not.**

  A byte that shows something and is claimed to be kept takes its whole line with it, unless a body
  of higher priority claims the byte.  And inside a body nothing is kept without such a claim: a
  line that is kept there holds a byte of a keeping match that is at least as strong as the body,
  whatever is said of unclaimed bytes.

  Neither looks at single declarations.  All matches of a file go into the rule for its bytes, the
  rule into the decision of a line (`exists_kept_over_iff`), and a kept line into the text
  (`mem_splitLines_of_kept`).
-/
import CodeOutline.Proofs.Compress.Steps

namespace CodeOutline

/-- The line lies in a kept range. -/
def Line.InKept (line : Line) (ranges : List Range) : Prop :=
  ∃ r ∈ ranges, r.keep = true ∧ r.start ≤ line.start ∧ line.stop ≤ r.stop

/-- A line inside a body is only kept for a match that is at least as strong. -/
theorem exists_keeping_of_keptLine {retain : Bool} {claims : List Match} {b : Match}
    (hb : b ∈ claims) {line : Line} (hstart : b.start ≤ line.start) (hstop : line.stop ≤ b.stop)
    (hkept : KeptLine (KeptAt retain claims) line.start line.bytes) :
    ∃ m ∈ claims, m.role ≠ .body ∧ b.priority ≤ m.priority ∧
      ∃ (k : Nat) (byte : UInt8), line.bytes[k]? = some byte ∧
        m.covers (line.start + k) = true ∧
        (isBlankByte byte = false ∨ line.isBlank = true) := by
  have hinside : ∀ k : Fin line.bytes.length, b.covers (line.start + k) = true := by
    intro k
    rw [Match.covers_iff]
    simp only [Line.stop] at hstop
    omega
  rcases hkept with ⟨k, hshows, hkept⟩ | ⟨hblank, k, hkept⟩
  · obtain ⟨m, hm, hrole, hcovers, hle⟩ := exists_keeping_of_keptAt hkept hb (hinside k)
    exact ⟨m, hm, hrole, hle, k, _, List.getElem?_eq_getElem k.isLt, hcovers, .inl hshows⟩
  · obtain ⟨m, hm, hrole, hcovers, hle⟩ := exists_keeping_of_keptAt hkept hb (hinside k)
    exact ⟨m, hm, hrole, hle, k, _, List.getElem?_eq_getElem k.isLt, hcovers,
      .inr ((isBlank_iff line).mpr hblank)⟩

/-! ### A compressed file -/

/-- **Keeping matches survive and bodies are elided**, in every file that is compressed. -/
theorem survives_and_elides (file : SourceFile) (registry : Registry) (settings : Settings)
    (hcompressed : (compressFile file registry settings).isCompressed = true) :
    ∃ profile claims ranges, file.selectProfile registry = .ok profile ∧
      matchesOf file profile = .ok claims ∧
      resolveFile file registry settings = .ok ranges ∧
      (∀ m ∈ claims, m.role.keeps = true → ∀ (i : Nat) (byte : UInt8),
        file.bytes[i]? = some byte → isBlankByte byte = false → m.covers i = true →
        (∀ b ∈ claims, b.role = .body → b.covers i = true → b.priority ≤ m.priority) →
          ∃ line ∈ linesOf file.bytes, line.start ≤ i ∧ i < line.stop ∧ line.InKept ranges ∧
            line.bytes ∈ splitLines
              (Utf8.encode (compressFile file registry settings).content.toList)) ∧
      (∀ b ∈ claims, b.role = .body → ∀ line ∈ linesOf file.bytes,
        b.start ≤ line.start → line.stop ≤ b.stop → line.InKept ranges →
          ∃ m ∈ claims, m.role.keeps = true ∧ b.priority ≤ m.priority ∧
            ∃ (k : Nat) (byte : UInt8), line.bytes[k]? = some byte ∧
              m.covers (line.start + k) = true ∧
              (isBlankByte byte = false ∨ line.isBlank = true)) := by
  obtain ⟨profile, ranges, content, hselect, hplan, hrender, houtcome⟩ :=
    steps_of_compressed hcompressed
  obtain ⟨claims, hclaims, rfl⟩ := exists_matchesOf_of_plan hplan
  have hresolve := resolveFile_of_plan hselect hplan
  refine ⟨profile, claims, _, hselect, hclaims, hresolve, ?survival, ?elision⟩
  case survival =>
    intro m hm hkeeps i byte hbyte hshows hcovers hbodies
    obtain ⟨line, hline, k, hoffset, rfl⟩ := exists_line_of_byte hbyte
    rw [← hoffset] at hcovers hbodies
    have hkept : KeptLine (KeptAt (retains settings profile) claims) line.start line.bytes :=
      .inl ⟨k, hshows, keptAt_of_keeping _ hm (m.role.keeps_iff.mp hkeeps) hcovers hbodies⟩
    refine ⟨line, hline, by omega, by simp only [Line.stop]; omega,
      (exists_kept_over_iff hline _ _).mpr hkept, ?_⟩
    rw [houtcome]
    exact mem_splitLines_of_kept settings.placeholder_line hrender hline hkept
  case elision =>
    intro b hb _ line hline hstart hstop hkept
    obtain ⟨m, hm, hrole, hle, hbyte⟩ := exists_keeping_of_keptLine hb hstart hstop
      ((exists_kept_over_iff hline _ _).mp hkept)
    exact ⟨m, hm, m.role.keeps_iff.mpr hrole, hle, hbyte⟩

/-- A language with one rule: callables are captured for their signatures. -/
def callableProfile : Profile :=
  ⟨"lua", [], ⟨fun _ => true, fun _ => true⟩,
    [⟨.signatureOnly, 10, ["body"], "(callable) @definition"⟩], true⟩

def callableFile : SourceFile :=
  ⟨"a", "def f():\n    return 1\n", some "lua",
    .tree ⟨"module", true, [], 0, 22,
      [⟨"callable", true, [], 0, 21, [⟨"block", true, ["body"], 13, 21, []⟩]⟩]⟩⟩

def callableSignature : Match :=
  ⟨0, 8, .signatureOnly, 10, "callable", by decide, by decide⟩

def callableBody : Match :=
  ⟨8, 21, .body, 10, "block", by decide, by decide⟩

/-- The line of the signature survives. -/
theorem survives_and_elides_callable :
    (compressFile callableFile ⟨[callableProfile]⟩ .default).isCompressed = true ∧
      Utf8.encode "def f():\n".toList ∈ splitLines (Utf8.encode
        (compressFile callableFile ⟨[callableProfile]⟩ .default).content.toList) := by
  have hselect : callableFile.selectProfile ⟨[callableProfile]⟩ = .ok callableProfile := by rfl
  have hclaims : matchesOf callableFile callableProfile =
      .ok [callableSignature, callableBody] := by decide +kernel
  have hplan : plan callableFile callableProfile .default = .ok _ := plan_of_matchesOf hclaims
  obtain ⟨content, hrender⟩ := render_of_plan hplan
  have hcompressed :
      (compressFile callableFile ⟨[callableProfile]⟩ .default).isCompressed = true := by
    rw [compressFile_compressed rfl hselect (by decide) hplan hrender]
    rfl
  obtain ⟨profile, claims, ranges, hprofile, hmatches, -, hsurvival, -⟩ :=
    survives_and_elides callableFile ⟨[callableProfile]⟩ .default hcompressed
  obtain rfl : callableProfile = profile := Except.ok.inj (hselect.symm.trans hprofile)
  obtain rfl : [callableSignature, callableBody] = claims :=
    Except.ok.inj (hclaims.symm.trans hmatches)
  obtain ⟨line, hline, hstart, hstop, -, hleft⟩ := hsurvival callableSignature
    List.mem_cons_self rfl 0 100 (by decide) (by decide) (by decide) (by decide)
  have hlines : linesOf callableFile.bytes = [⟨0, Utf8.encode "def f():\n".toList⟩,
      ⟨9, Utf8.encode "    return 1\n".toList⟩] := by decide
  rw [hlines] at hline
  simp only [List.mem_cons, List.not_mem_nil, or_false] at hline
  rcases hline with rfl | rfl
  · exact ⟨hcompressed, hleft⟩
  · exact absurd hstart (by decide)

end CodeOutline
