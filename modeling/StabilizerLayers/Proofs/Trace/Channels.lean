/-!
# Lists compared channel by channel

Every entry of a list lies on some channels. Two lists are aligned when each
channel sees the same entries in the same order. Entries that share no channel
may change places; entries that share one never do.

An entry on no channel is not seen at all, so alignment says something about a
list only where every entry lies on a channel.
-/

namespace StabilizerLayers

variable {α κ : Type}

/-- Each channel sees the same entries in the same order. -/
def Aligned (on : α → κ → Bool) (first second : List α) : Prop :=
  ∀ channel, (first.filter fun entry => on entry channel) =
    second.filter fun entry => on entry channel

namespace Aligned

variable {on : α → κ → Bool} {first second third other : List α}

/-- A list is aligned with itself. -/
protected theorem refl (entries : List α) : Aligned on entries entries := fun _ => rfl

/-- Alignment goes both ways. -/
protected theorem symm (aligned : Aligned on first second) : Aligned on second first :=
  fun channel => (aligned channel).symm

/-- Alignment is passed on. -/
protected theorem trans (left : Aligned on first second) (right : Aligned on second third) :
    Aligned on first third :=
  fun channel => (left channel).trans (right channel)

/-- Parts can be replaced by aligned parts. -/
theorem append (left : Aligned on first second) (right : Aligned on third other) :
    Aligned on (first ++ third) (second ++ other) := by
  intro channel
  rw [List.filter_append, List.filter_append, left channel, right channel]

/-- A test that does not look at channels keeps alignment. -/
theorem filter (aligned : Aligned on first second) (keep : α → Bool) :
    Aligned on (first.filter keep) (second.filter keep) := by
  intro channel
  have swapped : ∀ entries : List α,
      ((entries.filter keep).filter fun entry => on entry channel) =
        (entries.filter fun entry => on entry channel).filter keep := by
    intro entries
    rw [List.filter_filter, List.filter_filter]
    exact List.filter_congr fun entry _ => Bool.and_comm _ _
  rw [swapped, swapped, aligned channel]

/-- Neighbouring parts without a common channel change places. -/
theorem append_comm
    (apart : ∀ entry ∈ first, ∀ next ∈ second, ∀ channel,
      on entry channel = true → on next channel = false) :
    Aligned on (first ++ second) (second ++ first) := by
  intro channel
  rw [List.filter_append, List.filter_append]
  by_cases silent : ∀ entry ∈ first, on entry channel = false
  · have none : (first.filter fun entry => on entry channel) = [] :=
      List.filter_eq_nil_iff.mpr fun entry member => by simp [silent entry member]
    rw [none, List.nil_append, List.append_nil]
  · obtain ⟨entry, refuted⟩ := Classical.not_forall.mp silent
    obtain ⟨member, seen⟩ := Classical.not_imp.mp refuted
    have heard : on entry channel = true := by simpa using seen
    have none : (second.filter fun next => on next channel) = [] :=
      List.filter_eq_nil_iff.mpr fun next later => by
        simp [apart entry member next later channel heard]
    rw [none, List.nil_append, List.append_nil]

end Aligned

end StabilizerLayers
