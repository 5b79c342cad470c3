import Mathlib.Data.List.Basic
import StabilizerLayers.Proofs.Trace.Channels

/-!
# Marks on aligned lists

If every entry lies on a channel, aligned lists hold the same entries, and one is
a rearrangement of the other that keeps entries with a common channel in order. A
mark on each entry of one list can therefore be carried over to the other.

This is used for the places of entries in a list of two parts, and for entries
that are kept or left out.
-/

namespace StabilizerLayers

variable {α β κ : Type} {on : α → κ → Bool}

namespace Aligned

/-- Entries that are aligned by what is read off them give aligned readings. -/
theorem map {read : β → α} {first second : List β}
    (aligned : Aligned (fun entry => on (read entry)) first second) :
    Aligned on (first.map read) (second.map read) := by
  intro channel
  have same := congrArg (List.map read) (aligned channel)
  simpa [List.filter_map, Function.comp_def] using same

variable (seen : ∀ entry, ∃ channel, on entry channel = true)

include seen

/-- Aligned lists hold the same entries. -/
theorem mem_of_mem {first second : List α} (aligned : Aligned on first second) {entry : α}
    (member : entry ∈ first) : entry ∈ second := by
  obtain ⟨channel, lies⟩ := seen entry
  have heard : entry ∈ first.filter fun entry => on entry channel :=
    List.mem_filter.mpr ⟨member, lies⟩
  rw [aligned channel] at heard
  exact (List.mem_filter.mp heard).1

/-- What is aligned with nothing is nothing. -/
theorem eq_nil {entries : List α} (aligned : Aligned on [] entries) : entries = [] :=
  List.eq_nil_iff_forall_not_mem.mpr fun _ member => by
    simpa using aligned.symm.mem_of_mem seen member

/-- The first entry of a list stands in an aligned list behind entries that share
    no channel with it. -/
theorem exists_append {entry : α} {rest : List α} {second : List α}
    (aligned : Aligned on (entry :: rest) second) :
    ∃ before after, second = before ++ entry :: after ∧
      (∀ earlier ∈ before, ∀ channel, on earlier channel = true → on entry channel = false) ∧
      Aligned on rest (before ++ after) := by
  have member : entry ∈ second := aligned.mem_of_mem seen (.head _)
  obtain ⟨before, after, rfl, fresh⟩ := List.eq_append_cons_of_mem member
  -- On a channel of the entry, the aligned list starts with the entry itself.
  have silent : ∀ channel, on entry channel = true →
      (before.filter fun earlier => on earlier channel) = [] := by
    intro channel lies
    have same := aligned channel
    simp only [List.filter_append, List.filter_cons, lies, if_true] at same
    cases heard : before.filter fun earlier => on earlier channel with
    | nil => rfl
    | cons first others =>
      rw [heard, List.cons_append] at same
      have listed : first ∈ before.filter fun earlier => on earlier channel := by simp [heard]
      rw [← (List.cons.inj same).1] at listed
      exact absurd (List.mem_filter.mp listed).1 fresh
  have apart : ∀ earlier ∈ before, ∀ channel,
      on earlier channel = true → on entry channel = false := by
    intro earlier listed channel lies
    cases shared : on entry channel with
    | false => rfl
    | true =>
      have heard := List.filter_eq_nil_iff.mp (silent channel shared) earlier listed
      exact absurd lies heard
  refine ⟨before, after, rfl, apart, fun channel => ?_⟩
  have same := aligned channel
  simp only [List.filter_append, List.filter_cons] at same ⊢
  cases lies : on entry channel with
  | true =>
    simp only [lies, if_true, silent channel lies, List.nil_append] at same ⊢
    exact (List.cons.inj same).2
  | false => simpa [lies] using same

/-- Marks on a list can be carried over to an aligned one. -/
theorem carry {read : β → α} {entries : List α} {marked : List β}
    (aligned : Aligned on entries (marked.map read)) :
    ∃ carried : List β, carried.map read = entries ∧
      Aligned (fun entry => on (read entry)) carried marked := by
  induction entries generalizing marked with
  | nil =>
    have none : marked = [] := List.map_eq_nil_iff.mp (aligned.eq_nil seen)
    exact ⟨[], rfl, none ▸ .refl _⟩
  | cons entry rest inductionHypothesis =>
    obtain ⟨before, after, parts, apart, later⟩ := aligned.exists_append seen
    obtain ⟨markedBefore, markedRest, rfl, rfl, restRead⟩ := List.map_eq_append_iff.mp parts
    obtain ⟨mark, markedAfter, rfl, rfl, rfl⟩ := List.map_eq_cons_iff.mp restRead
    rw [← List.map_append] at later
    obtain ⟨carried, rfl, same⟩ := inductionHypothesis later
    refine ⟨mark :: carried, rfl, ?_⟩
    have passed : Aligned (fun entry => on (read entry)) ([mark] ++ markedBefore)
        (markedBefore ++ [mark]) := by
      refine Aligned.append_comm fun moved isMark earlier listed channel lies => ?_
      obtain rfl := List.mem_singleton.mp isMark
      cases heard : on (read earlier) channel with
      | false => rfl
      | true =>
        have off := apart (read earlier) (List.mem_map_of_mem listed) channel heard
        simp [lies] at off
    have moved := passed.append (.refl markedAfter)
    have behind := (Aligned.refl [mark]).append same
    simp only [List.append_assoc, List.cons_append, List.nil_append] at moved behind
    exact behind.trans moved

end Aligned

/-! ### Lists of two parts -/

/-- A list in which no marked entry stands behind an unmarked one is its marked
    entries followed by the others. -/
theorem filter_append_filter_not {marked : List (α × Bool)}
    (ordered : marked.Pairwise fun earlier later => earlier.2 = false → later.2 = false) :
    marked = (marked.filter fun entry => entry.2) ++ marked.filter fun entry => !entry.2 := by
  induction marked with
  | nil => rfl
  | cons entry rest inductionHypothesis =>
    obtain ⟨below, later⟩ := List.pairwise_cons.mp ordered
    cases mark : entry.2 with
    | true => simpa [mark] using inductionHypothesis later
    | false =>
      have none : (rest.filter fun entry => entry.2) = [] :=
        List.filter_eq_nil_iff.mpr fun other member => by simp [below other member mark]
      have all : (rest.filter fun entry => !entry.2) = rest :=
        List.filter_eq_self.mpr fun other member => by simp [below other member mark]
      simp [mark, none, all]

/-- Whether every channel sees marked entries before unmarked ones. -/
def MarkedFirst (on : α → κ → Bool) (marked : List (α × Bool)) : Prop :=
  ∀ channel, (marked.filter fun entry => on entry.1 channel).Pairwise fun earlier later =>
    earlier.2 = false → later.2 = false

namespace MarkedFirst

variable {first second : List (α × Bool)}

/-- Two parts, the entries of the first marked. -/
theorem of_parts (first second : List α) :
    MarkedFirst on (first.map (·, true) ++ second.map (·, false)) := by
  intro channel
  rw [List.filter_append, List.pairwise_append]
  have marked : ∀ entry ∈ (first.map (·, true)).filter fun entry => on entry.1 channel,
      entry.2 = true := by
    intro entry member
    obtain ⟨original, -, rfl⟩ := List.mem_map.mp (List.mem_filter.mp member).1
    rfl
  have unmarked : ∀ entry ∈ (second.map (·, false)).filter fun entry => on entry.1 channel,
      entry.2 = false := by
    intro entry member
    obtain ⟨original, -, rfl⟩ := List.mem_map.mp (List.mem_filter.mp member).1
    rfl
  refine ⟨?_, ?_, fun earlier _ later member _ => unmarked later member⟩
  · exact List.pairwise_of_forall_mem_list fun earlier member later _ none => by
      simp [marked earlier member] at none
  · exact List.pairwise_of_forall_mem_list fun _ _ later member _ => unmarked later member

/-- Aligned lists are marked alike. -/
theorem of_aligned (marked : MarkedFirst on first)
    (aligned : Aligned (fun entry => on entry.1) second first) : MarkedFirst on second := by
  intro channel
  have same : (second.filter fun entry => on entry.1 channel) =
      first.filter fun entry => on entry.1 channel := aligned channel
  rw [same]
  exact marked channel

/-- In both parts of a list marked entries come first, and no marked one of the
    second part shares a channel with an unmarked one of the first. -/
theorem of_append (marked : MarkedFirst on (first ++ second)) :
    MarkedFirst on first ∧ MarkedFirst on second ∧
      ∀ entry ∈ first, entry.2 = false → ∀ later ∈ second, later.2 = true →
        ∀ channel, on later.1 channel = true → on entry.1 channel = false := by
  have parts := fun channel => List.pairwise_append.mp (List.filter_append .. ▸ marked channel)
  refine ⟨fun channel => (parts channel).1, fun channel => (parts channel).2.1, ?_⟩
  intro entry listed unmarked later laterListed mark channel lies
  cases shared : on entry.1 channel with
  | false => rfl
  | true =>
    have none := (parts channel).2.2 entry (List.mem_filter.mpr ⟨listed, shared⟩) later
      (List.mem_filter.mpr ⟨laterListed, lies⟩) unmarked
    simp [none] at mark

/-- Marked entries can stand before the others. -/
theorem aligned (marked : MarkedFirst on first) :
    Aligned on (first.map Prod.fst)
      (((first.filter fun entry => entry.2) ++ first.filter fun entry => !entry.2).map
        Prod.fst) := by
  refine Aligned.map fun channel => ?_
  have split := filter_append_filter_not (marked channel)
  refine split.trans ?_
  rw [List.filter_append, List.filter_filter, List.filter_filter, List.filter_filter,
    List.filter_filter]
  congr 1
  · exact List.filter_congr fun entry _ => Bool.and_comm _ _
  · exact List.filter_congr fun entry _ => Bool.and_comm _ _

end MarkedFirst

namespace Aligned

variable (seen : ∀ entry, ∃ channel, on entry channel = true)

include seen

/-- Two cuts through aligned lists cut them into four parts. What one cut has
    before it and the other after it shares no channel with what the first has
    after it and the other before it. -/
theorem crossing {first second third other : List α}
    (aligned : Aligned on (first ++ second) (third ++ other)) :
    ∃ both left right neither,
      Aligned on first (both ++ left) ∧ Aligned on second (right ++ neither) ∧
      Aligned on third (both ++ right) ∧ Aligned on other (left ++ neither) ∧
      ∀ entry ∈ left, ∀ next ∈ right, ∀ channel,
        on entry channel = true → on next channel = false := by
  -- Mark the entries of the first part and carry the marks over to the other order. There the
  -- marked entries may come first in each of the two parts.
  let marked := first.map (·, true) ++ second.map (·, false)
  have unmarked : marked.map Prod.fst = first ++ second := by
    simp [marked, Function.comp_def]
  have swapped : Aligned on (third ++ other) (marked.map Prod.fst) := unmarked ▸ aligned.symm
  obtain ⟨carried, parts, same⟩ := swapped.carry seen
  obtain ⟨early, late, rfl, rfl, rfl⟩ := List.map_eq_append_iff.mp parts
  have ordered : MarkedFirst on (early ++ late) := (MarkedFirst.of_parts first second).of_aligned same
  obtain ⟨earlyOrdered, lateOrdered, apart⟩ := ordered.of_append
  have marks : Aligned on (((early ++ late).filter fun entry => entry.2).map Prod.fst)
      ((marked.filter fun entry => entry.2).map Prod.fst) :=
    (same.filter fun entry => entry.2).map
  have others : Aligned on (((early ++ late).filter fun entry => !entry.2).map Prod.fst)
      ((marked.filter fun entry => !entry.2).map Prod.fst) :=
    (same.filter fun entry => !entry.2).map
  have firstMarked : (marked.filter fun entry => entry.2).map Prod.fst = first := by
    simp [marked, List.filter_map, Function.comp_def]
  have secondOthers : (marked.filter fun entry => !entry.2).map Prod.fst = second := by
    simp [marked, List.filter_map, Function.comp_def]
  refine ⟨(early.filter fun entry => entry.2).map Prod.fst,
    (late.filter fun entry => entry.2).map Prod.fst,
    (early.filter fun entry => !entry.2).map Prod.fst,
    (late.filter fun entry => !entry.2).map Prod.fst, ?_, ?_, ?_, ?_, ?_⟩
  · rw [firstMarked, List.filter_append, List.map_append] at marks
    exact marks.symm
  · rw [secondOthers, List.filter_append, List.map_append] at others
    exact others.symm
  · have split := earlyOrdered.aligned
    rwa [List.map_append] at split
  · have split := lateOrdered.aligned
    rwa [List.map_append] at split
  · intro entry member next following channel lies
    obtain ⟨one, listed, rfl⟩ := List.mem_map.mp member
    obtain ⟨two, alsoListed, rfl⟩ := List.mem_map.mp following
    obtain ⟨oneLate, oneMarked⟩ := List.mem_filter.mp listed
    obtain ⟨twoEarly, twoUnmarked⟩ := List.mem_filter.mp alsoListed
    exact apart two twoEarly (by simpa using twoUnmarked) one oneLate oneMarked channel lies

end Aligned

end StabilizerLayers
