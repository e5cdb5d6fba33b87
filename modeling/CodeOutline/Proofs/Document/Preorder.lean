/-
  CodeOutline/Proofs/Document/Preorder.lean
  =========================================
  **A listing shows the prefix tree of its paths in preorder.**

  `Before` orders the ways through a tree: a way stands before those that go on from it, and where
  two ways part, the names they take there decide (`NameBefore`), directories first.  The order is
  asymmetric, so a preorder of the ways along some paths is determined by its order
  (`IsPreorder.unique`).  In it each way is followed at once by all that go on from it
  (`IsPreorder.exists_below`), and names of one directory are in the order of names
  (`IsPreorder.siblings_iff`).

  The entries of a tree give such a list (`waysFrom`), and its lines go with it one by one
  (`arrange_entriesOf`), so each line is that of a name at the end of a way (`mem_lines_iff`).  The
  paths decide the listing by the sequences of names they stand for, whatever their number, order
  and spelling (`ofPaths_eq_of_sequences`).
-/
import CodeOutline.Proofs.Document.Listing
import CodeOutline.Proofs.Runs
import CodeOutline.Proofs.Text.Blank
import Mathlib.Data.List.Forall2
import Mathlib.Data.List.Nodup
import Mathlib.Data.List.Sort

namespace CodeOutline.Listing

open Text (Chars)

/-! ### The order of ways -/

/-- Whether two ways have the names of `front` in common and part at `a` and `b`. -/
structure Forks (front : List String) (a b : String) (way other : List String) : Prop where
  left : front ++ [a] <+: way
  right : front ++ [b] <+: other
  differ : a ≠ b

namespace Forks

variable {front front' : List String} {a b a' b' : String} {way other : List String}

theorem symm (hfork : Forks front a b way other) : Forks front b a other way :=
  ⟨hfork.right, hfork.left, hfork.differ.symm⟩

theorem cons (name : String) (hfork : Forks front a b way other) :
    Forks (name :: front) a b (name :: way) (name :: other) :=
  ⟨List.cons_prefix_cons.mpr ⟨rfl, hfork.left⟩, List.cons_prefix_cons.mpr ⟨rfl, hfork.right⟩,
    hfork.differ⟩

/-- Ways part in one place only. -/
theorem unique (hfork : Forks front a b way other) (hfork' : Forks front' a' b' way other) :
    front = front' ∧ a = a' ∧ b = b' := by
  obtain ⟨⟨wayRest, rfl⟩, ⟨otherRest, rfl⟩, hdiffer⟩ := hfork
  obtain ⟨hleft, hright, hdiffer'⟩ := hfork'
  induction front generalizing front' with
  | nil =>
    cases front' with
    | nil =>
      simp only [List.nil_append, List.cons_append, List.cons_prefix_cons, List.nil_prefix,
        and_true] at hleft hright
      exact ⟨rfl, hleft.symm, hright.symm⟩
    | cons name front' =>
      simp only [List.nil_append, List.cons_append, List.cons_prefix_cons] at hleft hright
      exact absurd (hleft.1.symm.trans hright.1) hdiffer
  | cons name front ih =>
    cases front' with
    | nil =>
      simp only [List.nil_append, List.cons_append, List.cons_prefix_cons] at hleft hright
      exact absurd (hleft.1.trans hright.1.symm) hdiffer'
    | cons name' front' =>
      simp only [List.cons_append, List.cons_prefix_cons] at hleft hright
      obtain ⟨rfl, hsame⟩ := ih hleft.2 hright.2
      exact ⟨by rw [hleft.1], hsame⟩

theorem not_begins (hfork : Forks front a b way other) : ¬ way <+: other := by
  intro hbegins
  have hsame : front ++ [a] = front ++ [b] :=
    (List.prefix_of_prefix_length_le (hfork.left.trans hbegins) hfork.right (by simp)).eq_of_length
      (by simp)
  exact hfork.differ (by simpa using hsame)

end Forks

section Order

variable {goesOn : List String → Prop}

/-- The order of names in the directory to which `front` leads: those from which a way goes on, then
the others, each by their characters. -/
def NameBefore (goesOn : List String → Prop) (front : List String) (a b : String) : Prop :=
  (goesOn (front ++ [a]) ∧ ¬ goesOn (front ++ [b])) ∨
    ((goesOn (front ++ [a]) ↔ goesOn (front ++ [b])) ∧ a < b)

theorem NameBefore.asymm {front : List String} {a b : String}
    (hname : NameBefore goesOn front a b) : ¬ NameBefore goesOn front b a := by
  rintro (⟨hb, ha⟩ | ⟨hsame, hless⟩)
  · rcases hname with ⟨ha', -⟩ | ⟨hsame, -⟩
    · exact ha ha'
    · exact ha (hsame.mpr hb)
  · rcases hname with ⟨ha, hb⟩ | ⟨-, hless'⟩
    · exact hb (hsame.mpr ha)
    · exact String.lt_irrefl _ (String.lt_trans hless hless')

theorem NameBefore.ne {front : List String} {a b : String}
    (hname : NameBefore goesOn front a b) : a ≠ b := by
  rintro rfl
  exact hname.asymm hname

/-- The order of preorder: a way is before what goes on from it, and ways that part are in the order
of the names where they do. -/
def Before (goesOn : List String → Prop) (way other : List String) : Prop :=
  (way <+: other ∧ way ≠ other) ∨
    ∃ front a b, Forks front a b way other ∧ NameBefore goesOn front a b

variable {way other third : List String}

theorem before_of_fork {front : List String} {a b : String} (hfork : Forks front a b way other) :
    Before goesOn way other ↔ NameBefore goesOn front a b := by
  constructor
  · rintro (⟨hbegins, -⟩ | ⟨front', a', b', hfork', hname⟩)
    · exact absurd hbegins hfork.not_begins
    · obtain ⟨rfl, rfl, rfl⟩ := hfork.unique hfork'
      exact hname
  · intro hname
    exact .inr ⟨front, a, b, hfork, hname⟩

theorem Before.asymm (hbefore : Before goesOn way other) : ¬ Before goesOn other way := by
  intro hafter
  rcases hbefore with ⟨hbegins, hne⟩ | ⟨front, a, b, hfork, hname⟩
  · rcases hafter with ⟨hbegins', -⟩ | ⟨front, a, b, hfork, -⟩
    · exact hne (hbegins.eq_of_length (Nat.le_antisymm hbegins.length_le hbegins'.length_le))
    · exact hfork.symm.not_begins hbegins
  · exact hname.asymm ((before_of_fork hfork.symm).mp hafter)

theorem Before.ne (hbefore : Before goesOn way other) : way ≠ other := by
  rintro rfl
  exact hbefore.asymm hbefore

instance : Std.Irrefl (Before goesOn) := ⟨fun _ hbefore => hbefore.asymm hbefore⟩

instance : Std.Antisymm (Before goesOn) := ⟨fun _ _ hbefore hafter => absurd hafter hbefore.asymm⟩

theorem before_siblings_iff {front : List String} {a b : String} :
    Before goesOn (front ++ [a]) (front ++ [b]) ↔ NameBefore goesOn front a b := by
  constructor
  · intro hbefore
    have hdiffer : a ≠ b := fun hsame => hbefore.ne (by rw [hsame])
    exact (before_of_fork ⟨List.prefix_rfl, List.prefix_rfl, hdiffer⟩).mp hbefore
  · intro hname
    exact (before_of_fork ⟨List.prefix_rfl, List.prefix_rfl, hname.ne⟩).mpr hname

/-- What goes on from a way stands before all that comes later and does not. -/
theorem Before.begins_of_begins (hfirst : Before goesOn way other)
    (hsecond : Before goesOn other third) (hbegins : way <+: third) : way <+: other := by
  rcases hfirst with ⟨hfirst, -⟩ | ⟨front, a, b, hfork, hname⟩
  · exact hfirst
  · -- otherwise the third way takes the first of the two names, and would stand before the second
    have hback : Forks front a b third other :=
      ⟨hfork.left.trans hbegins, hfork.right, hfork.differ⟩
    exact absurd hsecond (Before.asymm ((before_of_fork hback).mpr hname))

/-- The order under a name is the order of what follows it. -/
theorem Before.cons {below : List String → Prop} (name : String)
    (hbelow : ∀ way, goesOn (name :: way) ↔ below way) (hbefore : Before below way other) :
    Before goesOn (name :: way) (name :: other) := by
  rcases hbefore with ⟨hbegins, hne⟩ | ⟨front, a, b, hfork, hname⟩
  · exact .inl ⟨List.cons_prefix_cons.mpr ⟨rfl, hbegins⟩, by simpa using hne⟩
  · refine .inr ⟨name :: front, a, b, hfork.cons name, ?_⟩
    simpa only [NameBefore, List.cons_append, hbelow] using hname

end Order

/-! ### Preorders -/

/-- Whether some path goes along these names and then further. -/
def Extended (paths : List String) (way : List String) : Prop :=
  ∃ path ∈ paths, way <+: namesOf path ∧ way ≠ namesOf path

instance (paths : List String) (way : List String) : Decidable (Extended paths way) :=
  inferInstanceAs (Decidable (∃ path ∈ paths, way <+: namesOf path ∧ way ≠ namesOf path))

/-- The non-empty ways along some paths, each before what goes on from it. -/
structure IsPreorder (paths : List String) (entries : List (List String)) : Prop where
  mem_iff : ∀ way, way ∈ entries ↔ way ≠ [] ∧ Along paths way
  ordered : entries.Pairwise (Before (Extended paths))

namespace IsPreorder

variable {paths : List String} {entries : List (List String)}

theorem nodup (hentries : IsPreorder paths entries) : entries.Nodup :=
  hentries.ordered.imp Before.ne

theorem unique {others : List (List String)} (hentries : IsPreorder paths entries)
    (hothers : IsPreorder paths others) : entries = others :=
  hentries.ordered.eq_of_mem_iff hothers.ordered fun way =>
    (hentries.mem_iff way).trans (hothers.mem_iff way).symm

/-- A way is followed by all that go on from it, and by nothing else before they end. -/
theorem exists_below (hentries : IsPreorder paths entries) {way : List String}
    (hway : way ∈ entries) :
    ∃ before inside after, entries = before ++ way :: (inside ++ after) ∧
      (∀ other ∈ inside, way <+: other) ∧ ∀ other ∈ before ++ after, ¬ way <+: other := by
  obtain ⟨before, later, rfl⟩ := List.append_of_mem hway
  obtain ⟨-, hlater, hcross⟩ := List.pairwise_append.mp hentries.ordered
  obtain ⟨hfirst, hlater⟩ := List.pairwise_cons.mp hlater
  have hlost : later.Pairwise fun other third =>
      way.isPrefixOf third = true → way.isPrefixOf other = true := by
    refine hlater.imp_of_mem fun {other third} hother _ hsecond hbegins => ?_
    rw [List.isPrefixOf_iff_prefix] at hbegins ⊢
    exact (hfirst other hother).begins_of_begins hsecond hbegins
  refine ⟨before, later.takeWhile way.isPrefixOf, later.dropWhile way.isPrefixOf, ?_, ?_, ?_⟩
  · rw [List.takeWhile_append_dropWhile]
  · intro other hother
    rw [takeWhile_eq_filter hlost, List.mem_filter] at hother
    exact List.isPrefixOf_iff_prefix.mp hother.2
  · intro other hother hbegins
    rcases List.mem_append.mp hother with hother | hother
    · have hbefore := hcross other hother way List.mem_cons_self
      exact hbefore.asymm (.inl ⟨hbegins, hbefore.ne.symm⟩)
    · rw [dropWhile_eq_filter hlost, List.mem_filter] at hother
      simp [List.isPrefixOf_iff_prefix.mpr hbegins] at hother

/-- Of two names in one directory the one that is before the other comes first. -/
theorem siblings_iff (hentries : IsPreorder paths entries) {front : List String} {a b : String}
    (ha : front ++ [a] ∈ entries) (hb : front ++ [b] ∈ entries) :
    [front ++ [a], front ++ [b]].Sublist entries ↔ NameBefore (Extended paths) front a b := by
  rw [← before_siblings_iff]
  constructor
  · intro hsublist
    exact List.pairwise_iff_forall_sublist.mp hentries.ordered hsublist
  · intro hbefore
    obtain ⟨before, later, hsplit⟩ := List.append_of_mem ha
    rw [hsplit] at hb ⊢
    have hordered := hsplit ▸ hentries.ordered
    rcases List.mem_append.mp hb with hb | hb
    · have hafter := (List.pairwise_append.mp hordered).2.2 _ hb _ List.mem_cons_self
      exact absurd hafter hbefore.asymm
    · rcases List.mem_cons.mp hb with hsame | hb
      · exact absurd hsame.symm hbefore.ne
      · exact ((List.singleton_sublist.mpr hb).cons_cons _).trans (List.sublist_append_right _ _)

end IsPreorder

/-! ### The ways of a tree, in the order of its listing -/

mutual

/-- The ways that begin at an entry: its name, and those below. -/
def waysOf : Entry → List (List String)
  | ⟨name, children⟩ =>
    [name] :: (waysAmong true children ++ waysAmong false children).map (name :: ·)

/-- The ways that begin at those entries that are directories, or at those that are not. -/
def waysAmong (directories : Bool) : List Entry → List (List String)
  | [] => []
  | e :: later =>
    if (!e.children.isEmpty) = directories then waysOf e ++ waysAmong directories later
    else waysAmong directories later

end

/-- Directories, then files. -/
def inOrder (entries : List Entry) : List Entry :=
  entries.filter (fun e => !e.children.isEmpty) ++ entries.filter fun e => !(!e.children.isEmpty)

def waysFrom (entries : List Entry) : List (List String) := (inOrder entries).flatMap waysOf

theorem waysAmong_eq_flatMap (directories : Bool) (entries : List Entry) :
    waysAmong directories entries =
      (entries.filter fun e => (!e.children.isEmpty) == directories).flatMap waysOf := by
  induction entries with
  | nil => rw [waysAmong, List.filter_nil, List.flatMap_nil]
  | cons e later ih =>
    rw [waysAmong, ih, List.filter_cons]
    by_cases hkind : (!e.children.isEmpty) = directories
    · simp [hkind]
    · simp [hkind]

theorem waysOf_eq (e : Entry) : waysOf e = [e.name] :: (waysFrom e.children).map (e.name :: ·) := by
  obtain ⟨name, children⟩ := e
  rw [waysOf, waysAmong_eq_flatMap, waysAmong_eq_flatMap, waysFrom, inOrder, List.flatMap_append]
  simp

theorem mem_inOrder {e : Entry} {entries : List Entry} : e ∈ inOrder entries ↔ e ∈ entries := by
  rw [inOrder, List.mem_append, List.mem_filter, List.mem_filter, ← and_or_left]
  cases e.children.isEmpty <;> simp

theorem blocks_eq_map (depth : Nat) (entries : List Entry) :
    blocks depth entries = entries.map (block depth) := by
  induction entries with
  | nil => rw [blocks, List.map_nil]
  | cons e later ih => rw [blocks, ih, List.map_cons]

theorem block_eq (depth : Nat) (e : Entry) :
    block depth e = ⟨!e.children.isEmpty, nameLine depth (!e.children.isEmpty) e.name ::
      arrange (blocks (depth + 1) e.children)⟩ := by
  obtain ⟨name, children⟩ := e
  rw [block]

theorem arrange_blocks (depth : Nat) (entries : List Entry) :
    arrange (blocks depth entries) = (inOrder entries).flatMap fun e => (block depth e).lines := by
  have hdirectory : (fun b : Block => b.directory) ∘ block depth =
      fun e : Entry => !e.children.isEmpty := by
    funext e
    rw [Function.comp_apply, block_eq]
  have hfile : (fun b : Block => !b.directory) ∘ block depth =
      fun e : Entry => !(!e.children.isEmpty) := by
    funext e
    rw [Function.comp_apply, block_eq]
  rw [arrange, blocks_eq_map, List.filter_map, List.filter_map, hdirectory, hfile,
    ← List.map_append, List.flatMap_map, inOrder]

/-! ### Sorted entries -/

theorem Sorted.children {entries : List Entry} (hsorted : Sorted entries) {e : Entry}
    (he : e ∈ entries) : Sorted e.children := by
  induction hsorted with
  | nil => cases he
  | cons _ hchildren _ _ ih =>
    rcases List.mem_cons.mp he with rfl | he
    · exact hchildren
    · exact ih he

/-- What holds of a directory once it holds of those in it holds of every tree. -/
theorem Sorted.directories {P : ∀ entries, Sorted entries → Prop}
    (hstep : ∀ entries hsorted, (∀ e, ∀ he : e ∈ entries, P e.children (hsorted.children he)) →
      P entries hsorted)
    {entries : List Entry} (hsorted : Sorted entries) : P entries hsorted := by
  have hall : P entries hsorted ∧ ∀ e, ∀ he : e ∈ entries, P e.children (hsorted.children he) := by
    induction hsorted with
    | nil => exact ⟨hstep [] .nil (by simp), by simp⟩
    | @cons e later hless hchildren hlater ihChildren ihLater =>
      have hinside : ∀ other, ∀ hother : other ∈ e :: later,
          P other.children (Sorted.children (.cons hless hchildren hlater) hother) := by
        intro other hother
        rcases List.mem_cons.mp hother with rfl | hmem
        · exact ihChildren.1
        · exact ihLater.2 other hmem
      exact ⟨hstep _ (.cons hless hchildren hlater) hinside, hinside⟩
  exact hall.1

theorem Sorted.pairwise {entries : List Entry} (hsorted : Sorted entries) :
    entries.Pairwise fun e other => e.name < other.name := by
  induction hsorted with
  | nil => exact .nil
  | cons hless _ _ _ ih => exact .cons hless ih

/-- Below a name of sorted entries there is what its entry has. -/
theorem Sorted.leads_iff {entries : List Entry} (hsorted : Sorted entries) {e : Entry}
    (he : e ∈ entries) (way : List String) :
    Leads entries (e.name :: way) ↔ Leads e.children way := by
  induction hsorted with
  | nil => cases he
  | cons hless _ _ _ ih =>
    rw [leads_sorted_cons_iff hless]
    rcases List.mem_cons.mp he with rfl | hmem
    · rw [if_pos rfl]
    · rw [if_neg (String.ne_of_lt (hless e hmem)).symm, ih hmem]

/-- Whether a way through these entries goes on. -/
def GoesOn (entries : List Entry) (way : List String) : Prop :=
  ∃ next, Leads entries (way ++ [next])

theorem Sorted.goesOn_iff {entries : List Entry} (hsorted : Sorted entries) {e : Entry}
    (he : e ∈ entries) (way : List String) :
    GoesOn entries (e.name :: way) ↔ GoesOn e.children way :=
  exists_congr fun next => hsorted.leads_iff he (way ++ [next])

theorem Sorted.goesOn_name_iff {entries : List Entry} (hsorted : Sorted entries) {e : Entry}
    (he : e ∈ entries) : GoesOn entries [e.name] ↔ (!e.children.isEmpty) = true :=
  (hsorted.goesOn_iff he []).trans (isEmpty_children_iff e.children).symm

theorem mem_waysFrom_iff {entries : List Entry} (hsorted : Sorted entries) (way : List String) :
    way ∈ waysFrom entries ↔ way ≠ [] ∧ Leads entries way := by
  induction hsorted using Sorted.directories generalizing way with
  | hstep entries hsorted ih =>
  rw [waysFrom, List.mem_flatMap]
  constructor
  · rintro ⟨e, he, hway⟩
    have hmem := mem_inOrder.mp he
    rw [waysOf_eq, List.mem_cons, List.mem_map] at hway
    rcases hway with rfl | ⟨rest, hrest, rfl⟩
    · exact ⟨List.cons_ne_nil _ _, (hsorted.leads_iff hmem []).mpr (leads_nil _)⟩
    · exact ⟨List.cons_ne_nil _ _, (hsorted.leads_iff hmem rest).mpr ((ih e hmem rest).mp hrest).2⟩
  · rintro ⟨hne, hleads⟩
    cases way with
    | nil => exact absurd rfl hne
    | cons name rest =>
      obtain ⟨e, he, rfl, hrest⟩ := leads_cons_iff.mp hleads
      refine ⟨e, mem_inOrder.mpr he, ?_⟩
      rw [waysOf_eq, List.mem_cons, List.mem_map]
      by_cases hnil : rest = []
      · exact .inl (by rw [hnil])
      · exact .inr ⟨rest, (ih e he rest).mpr ⟨hnil, hrest⟩, rfl⟩

/-- Entries in the order of their listing have their names in the order of names. -/
theorem pairwise_inOrder {entries : List Entry} (hsorted : Sorted entries) :
    (inOrder entries).Pairwise fun e other =>
      NameBefore (GoesOn entries) [] e.name other.name := by
  have hmark : ∀ {e}, e ∈ entries →
      (GoesOn entries ([] ++ [e.name]) ↔ e.children.isEmpty = false) := by
    intro e he
    rw [List.nil_append, hsorted.goesOn_name_iff he, Bool.not_eq_true']
  have hkind : ∀ p : Entry → Bool, (∀ e other, p e = true → p other = true →
      e.children.isEmpty = other.children.isEmpty) →
      (entries.filter p).Pairwise fun e other =>
        NameBefore (GoesOn entries) [] e.name other.name := by
    intro p hp
    rw [List.pairwise_filter]
    refine hsorted.pairwise.imp_of_mem fun {e other} he hother hless hpe hpother => .inr ⟨?_, hless⟩
    rw [hmark he, hmark hother, hp e other hpe hpother]
  rw [inOrder, List.pairwise_append]
  refine ⟨hkind _ ?_, hkind _ ?_, ?_⟩
  · intro e other he hother
    simp only [Bool.not_eq_true'] at he hother
    rw [he, hother]
  · intro e other he hother
    simp only [Bool.not_not] at he hother
    rw [he, hother]
  · intro e he other hother
    obtain ⟨he, hdirectory⟩ := List.mem_filter.mp he
    obtain ⟨hother, hfile⟩ := List.mem_filter.mp hother
    refine .inl ⟨(hmark he).mpr (by simpa using hdirectory), ?_⟩
    rw [hmark hother]
    simpa using hfile

theorem exists_cons_of_mem_waysOf {e : Entry} {way : List String} (hway : way ∈ waysOf e) :
    ∃ rest, way = e.name :: rest := by
  rw [waysOf_eq, List.mem_cons, List.mem_map] at hway
  rcases hway with rfl | ⟨rest, -, rfl⟩
  · exact ⟨[], rfl⟩
  · exact ⟨rest, rfl⟩

theorem pairwise_waysFrom {entries : List Entry} (hsorted : Sorted entries) :
    (waysFrom entries).Pairwise (Before (GoesOn entries)) := by
  induction hsorted using Sorted.directories with
  | hstep entries hsorted ih =>
  rw [waysFrom, List.pairwise_flatMap]
  constructor
  · intro e he
    have hmem := mem_inOrder.mp he
    rw [waysOf_eq, List.pairwise_cons, List.pairwise_map]
    constructor
    · intro way hway
      obtain ⟨rest, hrest, rfl⟩ := List.mem_map.mp hway
      have hne := ((mem_waysFrom_iff (hsorted.children hmem) rest).mp hrest).1
      exact .inl ⟨by simp, by simpa using hne.symm⟩
    · exact (ih e hmem).imp (Before.cons e.name (hsorted.goesOn_iff hmem))
  · refine (pairwise_inOrder hsorted).imp fun {e other} hname way hway way' hway' => ?_
    obtain ⟨rest, rfl⟩ := exists_cons_of_mem_waysOf hway
    obtain ⟨rest', rfl⟩ := exists_cons_of_mem_waysOf hway'
    exact .inr ⟨[], e.name, other.name, ⟨by simp, by simp, hname.ne⟩, hname⟩

/-! ### The lines of a listing -/

/-- Whether the line is that of the last name of a way, indented by the names before it and marked
when the way goes on. -/
def IsEntry (goesOn : List String → Prop) (depth : Nat) (way : List String) (line : Chars) : Prop :=
  ∃ front name directory, way = front ++ [name] ∧ (directory = true ↔ goesOn way) ∧
    line = nameLine (depth + front.length) directory name

theorem IsEntry.cons {goesOn below : List String → Prop} {depth : Nat} {way : List String}
    {line : Chars} (name : String) (hbelow : ∀ way, goesOn (name :: way) ↔ below way)
    (hentry : IsEntry below (depth + 1) way line) : IsEntry goesOn depth (name :: way) line := by
  obtain ⟨front, last, directory, rfl, hmark, rfl⟩ := hentry
  refine ⟨name :: front, last, directory, rfl, hmark.trans (hbelow _).symm, ?_⟩
  rw [List.length_cons, Nat.add_right_comm, Nat.add_assoc]

theorem forall₂_flatMap {α β γ : Type} {R : β → γ → Prop} {f : α → List β} {g : α → List γ}
    {l : List α} (heach : ∀ a ∈ l, List.Forall₂ R (f a) (g a)) :
    List.Forall₂ R (l.flatMap f) (l.flatMap g) := by
  induction l with
  | nil => exact .nil
  | cons a l ih =>
    obtain ⟨ha, hl⟩ := List.forall_mem_cons.mp heach
    rw [List.flatMap_cons, List.flatMap_cons]
    exact List.rel_append ha (ih hl)

/-- The lines of a tree are those of its ways, one by one. -/
theorem forall₂_isEntry {entries : List Entry} (hsorted : Sorted entries) (depth : Nat) :
    List.Forall₂ (IsEntry (GoesOn entries) depth) (waysFrom entries)
      (arrange (blocks depth entries)) := by
  induction hsorted using Sorted.directories generalizing depth with
  | hstep entries hsorted ih =>
  rw [waysFrom, arrange_blocks]
  apply forall₂_flatMap
  intro e he
  have hmem := mem_inOrder.mp he
  rw [waysOf_eq, block_eq]
  constructor
  · exact ⟨[], e.name, !e.children.isEmpty, rfl, (hsorted.goesOn_name_iff hmem).symm, rfl⟩
  · rw [List.forall₂_map_left_iff]
    exact (ih e hmem (depth + 1)).imp fun _ _ => IsEntry.cons e.name (hsorted.goesOn_iff hmem)

/-- The line of a way: its last name, two blanks before it for every name around it, and a slash
after it where a path goes on. -/
def lineOf (paths : List String) (way : List String) : Chars :=
  List.replicate (2 * (way.length - 1)) ' ' ++ (way.getLastD "").toList ++
    (if Extended paths way then ['/'] else [])

theorem extended_iff {paths way : List String} :
    Extended paths way ↔ ∃ next, Along paths (way ++ [next]) := by
  constructor
  · rintro ⟨path, hpath, ⟨rest, hrest⟩, hne⟩
    cases rest with
    | nil => exact absurd (by simpa using hrest) hne
    | cons next rest =>
      refine ⟨next, path, hpath, rest, ?_⟩
      rw [← hrest]
      simp
  · rintro ⟨next, path, hpath, hbegins⟩
    refine ⟨path, hpath, (List.prefix_append _ _).trans hbegins, ?_⟩
    rintro rfl
    exact absurd hbegins.length_le (by simp)

theorem goesOn_entriesOf (paths : List String) : GoesOn (entriesOf paths) = Extended paths := by
  funext way
  refine propext (Iff.trans ?_ extended_iff.symm)
  exact exists_congr fun next => leads_entriesOf (by simp)

theorem lineOf_concat {paths front : List String} {name : String} {directory : Bool}
    (hmark : directory = true ↔ Extended paths (front ++ [name])) :
    lineOf paths (front ++ [name]) = nameLine front.length directory name := by
  rw [lineOf, nameLine, if_congr hmark.symm rfl rfl]
  simp

theorem isPreorder_waysFrom (paths : List String) :
    IsPreorder paths (waysFrom (entriesOf paths)) := by
  have hsorted := sorted_entriesOf paths
  constructor
  · intro way
    rw [mem_waysFrom_iff hsorted]
    exact and_congr_right leads_entriesOf
  · rw [← goesOn_entriesOf]
    exact pairwise_waysFrom hsorted

theorem arrange_entriesOf (paths : List String) :
    arrange (blocks 0 (entriesOf paths)) = (waysFrom (entriesOf paths)).map (lineOf paths) := by
  symm
  rw [← List.forall₂_eq_eq_eq, List.forall₂_map_left_iff]
  refine (forall₂_isEntry (sorted_entriesOf paths) 0).imp fun way line hentry => ?_
  obtain ⟨front, name, directory, rfl, hmark, rfl⟩ := hentry
  rw [goesOn_entriesOf] at hmark
  rw [lineOf_concat hmark, Nat.zero_add]

/-- Whether the line is that of a name to which a way leads, in a directory of this depth; the mark
says whether a way goes on from there. -/
def IsLineOf (ways : List String → Prop) (depth : Nat) (line : Chars) : Prop :=
  ∃ front name directory, ways (front ++ [name]) ∧
    (directory = true ↔ ∃ next, ways (front ++ [name, next])) ∧
    line = nameLine (depth + front.length) directory name

/-- The lines of a listing, by its paths. -/
theorem mem_lines_iff (paths : List String) (line : Chars) :
    line ∈ arrange (blocks 0 (entriesOf paths)) ↔ IsLineOf (Along paths) 0 line := by
  have hways := (isPreorder_waysFrom paths).mem_iff
  have hmark : ∀ front name, Extended paths (front ++ [name]) ↔
      ∃ next, Along paths (front ++ [name, next]) := by
    intro front name
    simp [extended_iff]
  rw [arrange_entriesOf, List.mem_map]
  constructor
  · rintro ⟨way, hway, rfl⟩
    obtain ⟨hne, halong⟩ := (hways way).mp hway
    obtain ⟨front, name, rfl⟩ := (List.eq_nil_or_concat' way).resolve_left hne
    refine ⟨front, name, decide (Extended paths (front ++ [name])), halong, ?_, ?_⟩
    · rw [decide_eq_true_iff, hmark]
    · rw [lineOf_concat decide_eq_true_iff, Nat.zero_add]
  · rintro ⟨front, name, directory, halong, hdirectory, rfl⟩
    refine ⟨front ++ [name], (hways _).mpr ⟨by simp, halong⟩, ?_⟩
    rw [lineOf_concat (hdirectory.trans (hmark front name).symm), Nat.zero_add]

/-! ### Listings -/

/-- The listing of some paths is decided by any preorder of the ways along them. -/
theorem IsPreorder.ofPaths_eq {paths : List String} {entries : List (List String)}
    (hentries : IsPreorder paths entries) :
    ofPaths paths = String.ofList (['\n'].intercalate (entries.map (lineOf paths))) := by
  rw [ofPaths, Text.joinWith_eq_intercalate, arrange_entriesOf,
    hentries.unique (isPreorder_waysFrom paths)]

/-- Whether two lists of paths stand for the same sequences of names. -/
def SameSequences (paths others : List String) : Prop :=
  ∀ names, names ∈ paths.map namesOf ↔ names ∈ others.map namesOf

theorem exists_path_congr {paths others : List String} (hsame : SameSequences paths others)
    (P : List String → Prop) :
    (∃ path ∈ paths, P (namesOf path)) ↔ ∃ path ∈ others, P (namesOf path) := by
  have hnames : ∀ paths : List String, (∃ path ∈ paths, P (namesOf path)) ↔
      ∃ names ∈ paths.map namesOf, P names := by
    intro paths
    simp
  rw [hnames paths, hnames others]
  exact exists_congr fun names => and_congr_left' (hsame names)

theorem ofPaths_eq_of_sequences {paths others : List String} (hsame : SameSequences paths others) :
    ofPaths paths = ofPaths others := by
  have halong : Along paths = Along others :=
    funext fun way => propext (exists_path_congr hsame (way <+: ·))
  have hextended : Extended paths = Extended others :=
    funext fun way => propext (exists_path_congr hsame fun names => way <+: names ∧ way ≠ names)
  have hpreorder := isPreorder_waysFrom paths
  have hpreorder' : IsPreorder others (waysFrom (entriesOf paths)) :=
    ⟨halong ▸ hpreorder.mem_iff, hextended ▸ hpreorder.ordered⟩
  have hlines : lineOf paths = lineOf others := by
    funext way
    rw [lineOf, lineOf, if_congr (iff_of_eq (congrFun hextended way)) rfl rfl]
  rw [hpreorder.ofPaths_eq, hpreorder'.ofPaths_eq, hlines]

/-- The names of a path are its parts between slashes of either kind, but for empty ones and
dots. -/
theorem namesOf_eq (path : String) :
    namesOf path = ((path.toList.splitOnP fun c => c = '/' || c = '\\').filter
      fun part => part ≠ [] && part ≠ ['.']).map String.ofList := by
  have hparts : ∀ s : Chars, Text.splitAtChar '/' (s.map fun c => if c = '\\' then '/' else c) =
      s.splitOnP fun c => c = '/' || c = '\\' := by
    intro s
    rw [Text.splitAtChar_eq_splitOn]
    induction s with
    | nil => rfl
    | cons c rest ih =>
      rw [List.map_cons, List.splitOn_cons_eq_if_modifyHead, List.splitOnP_cons_eq_if_modifyHead,
        ih]
      by_cases hback : c = '\\'
      · simp [hback]
      · by_cases hslash : c = '/'
        · simp [hslash]
        · simp [hback, hslash]
  rw [namesOf, hparts]

/-- A listing is the preorder of the prefix tree of its paths, a line for each entry, and the
sequences of names that the paths stand for decide it. -/
theorem listing_preorder (paths : List String) :
    (∃ entries, IsPreorder paths entries ∧
      (∀ others, IsPreorder paths others → others = entries) ∧ entries.Nodup ∧
      (∀ way ∈ entries, ∃ before inside after, entries = before ++ way :: (inside ++ after) ∧
        (∀ other ∈ inside, way <+: other) ∧ ∀ other ∈ before ++ after, ¬ way <+: other) ∧
      (∀ front a b, front ++ [a] ∈ entries → front ++ [b] ∈ entries →
        ([front ++ [a], front ++ [b]].Sublist entries ↔
          NameBefore (Extended paths) front a b)) ∧
      ofPaths paths = String.ofList (['\n'].intercalate (entries.map (lineOf paths)))) ∧
    (∀ others, SameSequences paths others → ofPaths paths = ofPaths others) ∧
    ∀ path, namesOf path = ((path.toList.splitOnP fun c => c = '/' || c = '\\').filter
      fun part => part ≠ [] && part ≠ ['.']).map String.ofList := by
  refine ⟨⟨waysFrom (entriesOf paths), ?_⟩, fun _ => ofPaths_eq_of_sequences, namesOf_eq⟩
  have hpreorder := isPreorder_waysFrom paths
  refine ⟨hpreorder, ?_, hpreorder.nodup, ?_, ?_, hpreorder.ofPaths_eq⟩
  · intro others hothers
    exact hothers.unique hpreorder
  · intro way hway
    exact hpreorder.exists_below hway
  · intro front a b ha hb
    exact hpreorder.siblings_iff ha hb

/-- Slashes, backslashes, dots, order and repetition do not matter. -/
theorem listing_preorder_spellings :
    ofPaths ["src/b.py", "./src/a/c.py", "src/a", "README.md"] =
      ofPaths ["README.md", "src\\a\\c.py", "src//b.py", "/src/a/", "README.md"] := by
  refine (listing_preorder ["src/b.py", "./src/a/c.py", "src/a", "README.md"]).2.1 _ ?_
  have hpaths : ["src/b.py", "./src/a/c.py", "src/a", "README.md"].map namesOf =
      [["src", "b.py"], ["src", "a", "c.py"], ["src", "a"], ["README.md"]] := by decide +kernel
  have hothers : ["README.md", "src\\a\\c.py", "src//b.py", "/src/a/", "README.md"].map namesOf =
      [["README.md"], ["src", "a", "c.py"], ["src", "b.py"], ["src", "a"], ["README.md"]] := by
    decide +kernel
  intro names
  rw [hpaths, hothers]
  simp only [List.mem_cons, List.not_mem_nil, or_false]
  tauto

end CodeOutline.Listing
