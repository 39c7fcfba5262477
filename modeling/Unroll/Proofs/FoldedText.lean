import Unroll.Proofs.PlainText

/-!
# Lower case is final

No run of capitals has its small letters within another run (`CaseRun.misses`), which is a finite
check of the table. So the characters of a text in lower case stay as they are (`IsFolded`), alone
and in any other text, and to fold a text again changes nothing (`lower_lower`).
-/

namespace Unroll.Text

/-- The lower case of the first run lies outside the second one: before it, behind it, or between
its members. -/
def CaseRun.misses (r s : CaseRun) : Bool :=
  let low := (r.first + r.offset).toNat
  let high := (r.last + r.offset).toNat
  Nat.blt high s.first || Nat.blt s.last low ||
    (s.step == 2 && (r.step == 2 || r.first == r.last) && Nat.blt 0 low &&
      (low + s.first) % 2 == 1)

theorem CaseRun.contains_of_misses {r s : CaseRun} {code : Nat} (h : r.misses s)
    (hcode : r.contains code) : s.contains (code + r.offset).toNat = false := by
  simp only [CaseRun.misses, Bool.or_eq_true, Bool.and_eq_true, Nat.blt_eq, beq_iff_eq] at h
  simp only [CaseRun.contains, Bool.and_eq_true, decide_eq_true_eq, beq_iff_eq] at hcode
  obtain ⟨⟨hlow, hhigh⟩, hstep⟩ := hcode
  rw [Bool.eq_false_iff, CaseRun.contains]
  simp only [ne_eq, Bool.and_eq_true, decide_eq_true_eq, beq_iff_eq, not_and]
  intro hwithin hmod
  rcases h with (hbefore | hbehind) | ⟨⟨⟨htwo, hsteps⟩, hpos⟩, hodd⟩
  · omega
  · omega
  · rw [htwo] at hmod
    rcases hsteps with hr | hr
    · rw [hr] at hstep
      omega
    · omega

/-- The dotted capital I, whose lower case is no single character. -/
def dottedCapital : CaseRun :=
  ⟨0x130, 0x130, 1, 0⟩

theorem caseRuns_miss {r s : CaseRun} (hr : r ∈ caseRuns) (hs : s ∈ dottedCapital :: caseRuns) :
    r.misses s := by
  have hall : caseRuns.all fun r => (dottedCapital :: caseRuns).all fun s => r.misses s := by
    decide +kernel
  exact List.all_eq_true.1 (List.all_eq_true.1 hall r hr) s hs

/-- A character that lower case leaves alone wherever it stands. -/
structure IsFolded (c : Char) : Prop where
  lowerChar_eq : lowerChar c = [c]
  ne_sigma : c ≠ '\u03A3'

theorem isFolded_of_isPlain {c : Char} (h : IsPlain c) : IsFolded c := by
  refine ⟨?_, ?_⟩
  · rw [lowerChar_of_ascii h.1, h.2]
  · rintro rfl
    exact absurd h.1 (by decide)

theorem isFolded_of_find?_eq_none {c : Char} (hdotted : c ≠ '\u0130')
    (h : caseRuns.find? (·.contains c.toNat) = none) : IsFolded c := by
  refine ⟨?_, ?_⟩
  · rw [lowerChar, if_neg hdotted, h]
  · rintro rfl
    exact absurd h (by decide +kernel)

theorem isFolded_ofNat {code : Nat}
    (h : ∀ s ∈ dottedCapital :: caseRuns, s.contains code = false) :
    IsFolded (Char.ofNat code) := by
  rw [List.forall_mem_cons] at h
  by_cases hvalid : code.isValidChar
  · have hcode : (Char.ofNat code).toNat = code := by
      rw [Char.ofNat, dif_pos hvalid]
      rfl
    apply isFolded_of_find?_eq_none
    · intro heq
      rw [← hcode, heq] at h
      exact absurd h.1 (by decide)
    · rw [List.find?_eq_none, hcode]
      intro s hs
      rw [h.2 s hs]
      exact Bool.false_ne_true
  · -- there is no such character, and zero takes its place
    rw [Char.ofNat, dif_neg hvalid]
    exact isFolded_of_isPlain (by decide)

theorem isFolded_of_mem_lowerChar {c d : Char} (h : d ∈ lowerChar c) : IsFolded d := by
  unfold lowerChar at h
  split at h
  · rcases List.mem_cons.1 h with rfl | h
    · exact isFolded_of_isPlain (by decide)
    · rw [List.mem_singleton.1 h]
      exact isFolded_of_find?_eq_none (by decide) (by decide +kernel)
  · next hdotted =>
    split at h
    · next r hr =>
      rw [List.mem_singleton.1 h]
      have hmem := List.mem_of_find?_eq_some hr
      have hcontains := List.find?_some hr
      apply isFolded_ofNat
      intro s hs
      exact CaseRun.contains_of_misses (caseRuns_miss hmem hs) hcontains
    · next hnone =>
      rw [List.mem_singleton.1 h]
      exact isFolded_of_find?_eq_none hdotted hnone

theorem isFolded_of_mem_lowerAfter {before cs : List Char} {d : Char}
    (h : d ∈ lowerAfter before cs) : IsFolded d := by
  induction cs generalizing before with
  | nil => cases h
  | cons c cs ih =>
    rw [lowerAfter, List.mem_append] at h
    rcases h with h | h
    · split at h
      · split at h
        · rw [List.mem_singleton.1 h]
          exact isFolded_of_find?_eq_none (by decide) (by decide +kernel)
        · rw [List.mem_singleton.1 h]
          exact isFolded_of_find?_eq_none (by decide) (by decide +kernel)
      · exact isFolded_of_mem_lowerChar h
    · exact ih h

theorem isFolded_of_mem_lower {s : String} {c : Char} (h : c ∈ (lower s).toList) :
    IsFolded c := by
  rw [lower, String.toList_ofList] at h
  exact isFolded_of_mem_lowerAfter h

theorem lowerAfter_of_isFolded {cs : List Char} (before : List Char) (h : ∀ c ∈ cs, IsFolded c) :
    lowerAfter before cs = cs := by
  induction cs generalizing before with
  | nil => rfl
  | cons c cs ih =>
    rw [List.forall_mem_cons] at h
    rw [lowerAfter, if_neg h.1.ne_sigma, h.1.lowerChar_eq, ih _ h.2]
    rfl

theorem lower_of_isFolded {s : String} (h : ∀ c ∈ s.toList, IsFolded c) : lower s = s := by
  rw [lower, lowerAfter_of_isFolded [] h, String.ofList_toList]

theorem lower_lower (s : String) : lower (lower s) = lower s :=
  lower_of_isFolded fun _ => isFolded_of_mem_lower

end Unroll.Text
