import Mathlib.Data.List.Pairwise
import Unroll.Report

/-!
# When a report says that its measurements agree

A report only compares neighbours. Since equality is transitive, that compares all measurements with
each other (`neighboursAgree_iff`), and what is said of all pairs does not depend on the order.
-/

namespace Unroll

theorem neighboursAgree_iff_isChain {ms : List Measurement} :
    neighboursAgree ms = true ↔ (ms.map (·.value)).IsChain (· = ·) := by
  fun_induction neighboursAgree ms with
  | case1 a b rest ih =>
    simp only [Bool.and_eq_true, beq_iff_eq, ih, List.map_cons, List.isChain_cons_cons]
  | case2 ms hshort =>
    match ms, hshort with
    | [], _ => simp
    | [_], _ => simp
    | a :: b :: rest, hshort => exact absurd rfl (hshort a b rest)

/-- Neighbours agree exactly if any two do. -/
theorem neighboursAgree_iff {ms : List Measurement} :
    neighboursAgree ms = true ↔ ∀ a ∈ ms, ∀ b ∈ ms, a.value = b.value := by
  rw [neighboursAgree_iff_isChain, List.isChain_iff_pairwise]
  constructor
  · intro h a ha b hb
    exact h.forall_of_forall (fun _ _ => rfl) (List.mem_map_of_mem ha) (List.mem_map_of_mem hb)
  · intro h
    rw [List.pairwise_map]
    exact List.pairwise_of_forall_mem_list h

theorem neighboursAgree_eq_of_perm {ms ms' : List Measurement} (h : ms.Perm ms') :
    neighboursAgree ms = neighboursAgree ms' := by
  rw [Bool.eq_iff_iff, neighboursAgree_iff, neighboursAgree_iff]
  simp only [h.mem_iff]

/-- **A report says that its measurements agree exactly if they do.** The flag is set if and only if
any two measurements, next to each other or not, have the same value; it is the same for the
measurements in any other order. All else is kept as it is given. -/
theorem agree_compares_all_measurements (n : UInt64) (runs : UInt32) (ms : List Measurement) :
    let r := Report.ofMeasurements n runs ms
    (r.agree = true ↔ ∀ a ∈ ms, ∀ b ∈ ms, a.value = b.value) ∧
      (∀ ms', ms.Perm ms' → (Report.ofMeasurements n runs ms').agree = r.agree) ∧
      r.n = n ∧ r.runs = runs ∧ r.measurements = ms :=
  ⟨neighboursAgree_iff, fun _ h => (neighboursAgree_eq_of_perm h).symm, rfl, rfl, rfl⟩

end Unroll
