import Mathlib.Algebra.BigOperators.Group.Finset.Basic
import StabilizerLayers.Proofs.Schedule.Positions
import StabilizerLayers.Proofs.Schedule.ZNormalForms

/-!
# What the check of the vocabulary tells

The check of the vocabulary lets exactly the schedules through whose layers are all
canonical. It then has the census of the schedule: the number of layers of each kind,
and in total the number of layers, with loop bodies counted once. Otherwise it tells
the first layer in depth-first order that is no loop and not canonical, and the
findings are as they were.

Three recursions meet here, over loop bodies: that of a canonical layer, the search and
the count. They agree because each of them is told by the layers at the positions of
the schedule.
-/

namespace StabilizerLayers

/-! ### Censuses -/

/-- All kinds are listed. -/
theorem Layer.Kind.mem_all (kind : Kind) : kind ∈ all := by
  cases kind <;> decide

namespace Schedule

variable (schedule : Schedule)

/-- What the census records for a kind. -/
def recorded? (kind : Layer.Kind) : Option (Layer.Kind × Nat) :=
  if schedule.countKind kind = 0 then none else some (kind, schedule.countKind kind)

/-- The census consists of what it records for each kind. -/
theorem counts_census : schedule.census.counts = Layer.Kind.all.filterMap schedule.recorded? := by
  refine List.filterMap_congr fun kind _ => ?_
  rw [recorded?]
  cases schedule.countKind kind with
  | zero => rfl
  | succ count => rfl

/-- Entries recorded for some kinds tell the number of layers of each of them. -/
theorem get_recorded? (kind : Layer.Kind) (kinds : List Layer.Kind) :
    Census.get ⟨kinds.filterMap schedule.recorded?⟩ kind =
      if kind ∈ kinds then schedule.countKind kind else 0 := by
  induction kinds with
  | nil => rfl
  | cons first rest inductionHypothesis =>
    rw [Census.get] at inductionHypothesis ⊢
    by_cases same : kind = first
    · subst same
      by_cases none : schedule.countKind kind = 0
      · simp [recorded?, none, inductionHypothesis]
      · simp [recorded?, none]
    · have differs : (kind == first) = false := beq_false_of_ne same
      by_cases none : schedule.countKind first = 0
      · simp [recorded?, none, inductionHypothesis, same]
      · simp [recorded?, none, inductionHypothesis, same, List.lookup_cons, differs]

/-- Entries recorded for some kinds add up to the layers of all of them. -/
theorem total_recorded? (kinds : List Layer.Kind) :
    Census.total ⟨kinds.filterMap schedule.recorded?⟩ = (kinds.map schedule.countKind).sum := by
  induction kinds with
  | nil => rfl
  | cons kind rest inductionHypothesis =>
    rw [Census.total] at inductionHypothesis ⊢
    by_cases none : schedule.countKind kind = 0
    · simp [recorded?, none, inductionHypothesis]
    · simp [recorded?, none, inductionHypothesis]

/-- A census has the number of layers of each kind. -/
theorem get_census (kind : Layer.Kind) : schedule.census.get kind = schedule.countKind kind := by
  have recorded := schedule.get_recorded? kind Layer.Kind.all
  rwa [← counts_census, if_pos kind.mem_all] at recorded

/-- The layers of all kinds are all layers. -/
theorem sum_countKind {kinds : List Layer.Kind} (distinct : kinds.Nodup)
    (covered : ∀ kind, kind ∈ kinds) :
    (kinds.map schedule.countKind).sum = schedule.layerCount := by
  have member : ∀ kind ∈ (schedule.flattened.map Layer.kind : Multiset Layer.Kind),
      kind ∈ kinds.toFinset := fun kind _ => List.mem_toFinset.mpr (covered kind)
  calc (kinds.map schedule.countKind).sum
      = ∑ kind ∈ kinds.toFinset, schedule.countKind kind := (List.sum_toFinset _ distinct).symm
    _ = (schedule.flattened.map Layer.kind).length := by
        simpa [countKind] using Multiset.sum_count_eq_card member
    _ = schedule.layerCount := by
        rw [List.length_map]
        exact Layer.length_flattenedAll schedule

/-- A census has the number of layers in total. -/
theorem total_census : schedule.census.total = schedule.layerCount := by
  have total := schedule.total_recorded? Layer.Kind.all
  rwa [← counts_census, schedule.sum_countKind (by decide) Layer.Kind.mem_all] at total

/-- The number of layers of a kind is that of the positions with such layers. -/
theorem countKind_eq_ncard (kind : Layer.Kind) :
    schedule.countKind kind =
      {position | ∃ layer, schedule.at? position = some layer ∧ layer.kind = kind}.ncard := by
  rw [countKind, List.count, List.countP_map, countP_flattened]
  simp

/-- The layers of a schedule are canonical exactly if the check finds none that is not. -/
theorem outsideZBasis?_eq_none_iff_isCanonical :
    schedule.outsideZBasis? = none ↔ ∀ layer ∈ schedule, layer.isCanonical = true := by
  rw [outsideZBasis?_eq_none_iff, Layer.everywhere_iff]
  exact forall₂_congr fun _ _ => Layer.isCanonical_iff_within.symm

end Schedule

/-! ### The check -/

namespace Pass

/-- The check succeeds exactly on canonical layers, in loop bodies too. It then hands back the
    schedule with an exact census beside the other findings. Where it fails, the findings are as
    before, and what it tells is the first layer in depth-first order that is no loop and not
    canonical. -/
theorem verify_accepts_or_names_first (schedule : Schedule) (findings : Findings) :
    ((∃ next noted, (verify.work schedule).run.run findings = (.ok next, noted)) ↔
      ∀ layer ∈ schedule, layer.isCanonical = true) ∧
    (∀ next noted, (verify.work schedule).run.run findings = (.ok next, noted) →
      next = schedule ∧ noted.wholeCircuit = findings.wholeCircuit ∧
      ∃ census : Census, noted.get? .census = some census ∧
        census.total = schedule.layerCount ∧
        ∀ kind, census.get kind =
          {position | ∃ layer, schedule.at? position = some layer ∧ layer.kind = kind}.ncard) ∧
    ∀ fault noted, (verify.work schedule).run.run findings = (.error fault, noted) →
      noted = findings ∧
      ∃ position layer, fault = .outsideZBasis layer ∧ schedule.at? position = some layer ∧
        layer.isLoop = false ∧ layer.isCanonical = false ∧
        ∀ earlier other, List.Lex (· < ·) earlier position → schedule.at? earlier = some other →
          other.isLoop = false → other.isCanonical = true := by
  rw [work_verify, ← schedule.outsideZBasis?_eq_none_iff_isCanonical]
  cases outcome : schedule.outsideZBasis? with
  | none =>
    refine ⟨⟨fun _ => rfl, fun _ => ⟨schedule, _, rfl⟩⟩, ?_, by rintro _ _ ⟨⟩⟩
    rintro next noted ⟨⟩
    refine ⟨rfl, rfl, schedule.census, findings.get?_put_self .census _, schedule.total_census, ?_⟩
    intro kind
    rw [Schedule.get_census, Schedule.countKind_eq_ncard]
  -- The first layer outside has only loops and canonical layers before it.
  | some layer =>
    refine ⟨⟨by rintro ⟨_, _, ⟨⟩⟩, by rintro ⟨⟩⟩, by rintro _ _ ⟨⟩, ?_⟩
    rintro fault noted ⟨⟩
    obtain ⟨position, found, refused, passed⟩ := Schedule.exists_at?_of_find?_flattened outcome
    obtain ⟨flat, outside⟩ : layer.isLoop = false ∧ layer.isCanonical = false := by
      simpa using refused
    refine ⟨rfl, position, layer, rfl, found, flat, outside, ?_⟩
    intro earlier other precedes there otherFlat
    simpa [otherFlat] using passed earlier other precedes there

end Pass

end StabilizerLayers
