import Unroll.Proofs.JsonNumber

/-!
# JSON reports

A JSON report is read as an object with what was reported as its members (`Report.ShownIn`). All but
the timings come back as they were: the integers are at most as large as a word, and a text is
quoted whatever is in it. The measurements keep their order, each as an object of its own
(`Measurement.ShownIn`), in which the use of the stack is a member exactly if it was looked at.
-/

namespace Unroll

/-- The counters of the slots fit a word, as those of the calls do by their type. -/
structure StackStats.IsStorable (s : StackStats) : Prop where
  peakDepth_lt : s.peakDepth < UInt64.size
  slots_lt : s.slots < UInt64.size

/-- A value that has the four counters as members. -/
structure StackStats.ShownIn (s : StackStats) (v : Json) : Prop where
  pops : v.get? "pops" = some (.int s.pops.toNat)
  pushes : v.get? "pushes" = some (.int s.pushes.toNat)
  peakDepth : v.get? "peak_depth" = some (.int s.peakDepth)
  slots : v.get? "slots" = some (.int s.slots)

/-- A value that has what was measured as members. -/
structure Measurement.ShownIn (m : Measurement) (v : Json) : Prop where
  method : v.get? "method" = some (.str m.method.name)
  label : v.get? "label" = some (.str m.label)
  value : v.get? "value" = some (.int m.value.toNat)
  runs : v.get? "runs" = some (.int m.runs.toNat)
  totalMs : ∃ total, v.get? "total_ms" = some total ∧ Json.NumberOrNull m.totalMs total
  meanMs : ∃ mean, v.get? "mean_ms" = some mean ∧ Json.NumberOrNull m.meanMs mean
  stackStats : Option.Rel StackStats.ShownIn m.stackStats (v.get? "stack_stats")

/-- A value that has what was reported as members, the measurements in order. -/
structure Report.ShownIn (r : Report) (v : Json) : Prop where
  n : v.get? "n" = some (.int r.n.toNat)
  runs : v.get? "runs" = some (.int r.runs.toNat)
  measurements : ∃ items, v.get? "measurements" = some (.arr items) ∧
    List.Forall₂ Measurement.ShownIn r.measurements items
  agree : v.get? "agree" = some (.bool r.agree)

namespace Report

open Json (ReadsBack NumberOrNull)

/-! ## Counters -/

theorem readsBack_statsJson {s : StackStats} (h : s.IsStorable) :
    ReadsBack (statsJson s) (statsJson s) := by
  apply ReadsBack.obj_self
  simp only [List.forall_mem_cons]
  exact ⟨.nat s.pops.toNat_lt_size, .nat s.pushes.toNat_lt_size, .nat h.peakDepth_lt,
    .nat h.slots_lt, List.forall_mem_nil _⟩

theorem shownIn_statsJson (s : StackStats) : s.ShownIn (statsJson s) :=
  ⟨rfl, rfl, rfl, rfl⟩

/-! ## Measurements -/

/-- A measurement with some values for its timings. -/
def timedJson (m : Measurement) (total mean : Json) : Json :=
  .obj ([
    ("method", .str m.method.name),
    ("label", .str m.label),
    ("value", .word m.value),
    ("runs", .nat m.runs.toNat),
    ("total_ms", total),
    ("mean_ms", mean)] ++
    match m.stackStats with
    | some s => [("stack_stats", statsJson s)]
    | none => [])

theorem measurementJson_eq (m : Measurement) :
    measurementJson m = timedJson m (.float m.totalMs) (.float m.meanMs) :=
  rfl

theorem shownIn_timedJson {m : Measurement} {total mean : Json}
    (htotal : NumberOrNull m.totalMs total) (hmean : NumberOrNull m.meanMs mean) :
    m.ShownIn (timedJson m total mean) := by
  obtain ⟨method, label, value, runs, totalMs, meanMs, stackStats⟩ := m
  cases stackStats with
  | none => exact ⟨rfl, rfl, rfl, rfl, ⟨total, rfl, htotal⟩, ⟨mean, rfl, hmean⟩, .none⟩
  | some s =>
    exact ⟨rfl, rfl, rfl, rfl, ⟨total, rfl, htotal⟩, ⟨mean, rfl, hmean⟩,
      .some (shownIn_statsJson s)⟩

theorem readsBack_timedJson {m : Measurement} (h : ∀ s ∈ m.stackStats, s.IsStorable)
    {total total' mean mean' : Json} (htotal : ReadsBack total total')
    (hmean : ReadsBack mean mean') :
    ReadsBack (timedJson m total mean) (timedJson m total' mean') := by
  have hruns : m.runs.toNat < UInt64.size := Nat.lt_trans m.runs.toNat_lt_size (by decide)
  apply ReadsBack.obj_of_forall₂
  apply List.rel_append
  · exact .cons ⟨rfl, .str _⟩ <| .cons ⟨rfl, .str _⟩ <| .cons ⟨rfl, .nat m.value.toNat_lt_size⟩ <|
      .cons ⟨rfl, .nat hruns⟩ <| .cons ⟨rfl, htotal⟩ <| .cons ⟨rfl, hmean⟩ .nil
  · split
    case h_1 s hs => exact .cons ⟨rfl, readsBack_statsJson (h s hs)⟩ .nil
    case h_2 => exact .nil

theorem exists_readsBack_measurementJson {m : Measurement}
    (h : ∀ s ∈ m.stackStats, s.IsStorable) :
    ∃ v, ReadsBack (measurementJson m) v ∧ m.ShownIn v := by
  obtain ⟨total, htotal, htotalMs⟩ := Json.exists_readsAs_float m.totalMs
  obtain ⟨mean, hmean, hmeanMs⟩ := Json.exists_readsAs_float m.meanMs
  rw [measurementJson_eq]
  exact ⟨timedJson m total mean, readsBack_timedJson h (.float htotal) (.float hmean),
    shownIn_timedJson htotalMs hmeanMs⟩

theorem exists_readsBack_measurements {ms : List Measurement}
    (h : ∀ m ∈ ms, ∀ s ∈ m.stackStats, s.IsStorable) :
    ∃ items, List.Forall₂ ReadsBack (ms.map measurementJson) items ∧
      List.Forall₂ Measurement.ShownIn ms items := by
  induction ms with
  | nil => exact ⟨[], .nil, .nil⟩
  | cons m ms ih =>
    obtain ⟨hm, hms⟩ := List.forall_mem_cons.1 h
    obtain ⟨v, hread, hshown⟩ := exists_readsBack_measurementJson hm
    obtain ⟨items, hreads, hshowns⟩ := ih hms
    exact ⟨v :: items, .cons hread hreads, .cons hshown hshowns⟩

/-- The whole report comes back, each measurement as it does by itself. -/
theorem exists_readsBack_toJson {r : Report}
    (h : ∀ m ∈ r.measurements, ∀ s ∈ m.stackStats, s.IsStorable) :
    ∃ v, ReadsBack r.toJson v ∧ r.ShownIn v := by
  obtain ⟨items, hreads, hshown⟩ := exists_readsBack_measurements h
  have hruns : r.runs.toNat < UInt64.size := Nat.lt_trans r.runs.toNat_lt_size (by decide)
  refine ⟨.obj [
    ("n", .word r.n),
    ("runs", .nat r.runs.toNat),
    ("measurements", .arr items),
    ("agree", .bool r.agree)], ?_, rfl, rfl, ⟨items, rfl, hshown⟩, rfl⟩
  exact .obj_of_forall₂ <| .cons ⟨rfl, .nat r.n.toNat_lt_size⟩ <| .cons ⟨rfl, .nat hruns⟩ <|
    .cons ⟨rfl, .arr_of_forall₂ hreads⟩ <| .cons ⟨rfl, .bool r.agree⟩ .nil

end Report

/-- **A JSON report is read as what was reported.** Its text is the same for all precisions and is
read as an object with the index, the runs and the flag, and in order the method, label, value and
runs of each measurement. The use of the stack is there if and only if the measurement has it, with
the same counters. All integers come back exactly; a timing is a number if it is finite, and `null`
otherwise. -/
theorem json_report_reads_back {r : Report}
    (h : ∀ m ∈ r.measurements, ∀ s ∈ m.stackStats, s.IsStorable) :
    ∃ text v, (∀ precision, r.render .json precision = .ok text) ∧ Json.parse? text = some v ∧
      r.ShownIn v := by
  obtain ⟨v, hread, hshown⟩ := Report.exists_readsBack_toJson h
  exact ⟨r.toJson.pretty, v, fun _ => rfl, hread.parse?.2, hshown⟩

/-- The largest words, a label with quotes and a line end, and timings that are not finite. -/
theorem json_report_reads_back_largest :
    let stats : StackStats := ⟨18446744073709551615, 2, 1, 18446744073709551615⟩
    let r : Report := ⟨18446744073709551615, 4294967295, [
      ⟨.stack, "fib\n\"stack\"", 18446744073709551615, 1, .nan, .infinite true, some stats⟩,
      ⟨.naive, "", 0, 4294967295, .finite true 1 (-1074), .zero false, none⟩], false⟩
    stats.IsStorable ∧ ∃ text v, (∀ precision, r.render .json precision = .ok text) ∧
      Json.parse? text = some v ∧ r.ShownIn v := by
  intro stats r
  have hstats : stats.IsStorable := ⟨by decide, by decide⟩
  have hstorable : ∀ m ∈ r.measurements, ∀ s ∈ m.stackStats, s.IsStorable := by
    refine List.forall_mem_cons.2 ⟨?_, List.forall_mem_singleton.2 nofun⟩
    intro s hs
    obtain rfl := Option.some.inj hs
    exact hstats
  exact ⟨hstats, json_report_reads_back hstorable⟩

end Unroll
