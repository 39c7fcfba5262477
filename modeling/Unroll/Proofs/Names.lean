import Mathlib.Data.List.Forall2
import Unroll.Config
import Unroll.Proofs.PlainText

/-!
# Names as they are typed

A name may be padded with blanks and written in any case. A text that is a name but for the case of
its letters (`Text.Recased`) is folded to the name, be it as ASCII or as Unicode. Trimming takes
blanks off both ends and nothing else (`Text.exists_trimChars`), so a text that is read as a method
or as a format has only blanks and letters of the name in it (`Method.notMem_of_parse`,
`OutputFormat.notMem_of_parse`).
-/

namespace Unroll

namespace Text

/-! ## Letters in any case -/

/-- A name with any of its letters in upper case. -/
def Recased (text name : String) : Prop :=
  List.Forall₂ (fun c d => c = d ∨ c = d.toUpper) text.toList name.toList

instance (text name : String) : Decidable (Recased text name) :=
  inferInstanceAs (Decidable (List.Forall₂ _ _ _))

theorem Recased.refl (name : String) : Recased name name :=
  List.forall₂_same.2 fun _ _ => .inl rfl

theorem toNat_of_isLower {c : Char} (h : c.isLower) : c.toNat ≤ 122 := by
  have hrange := Bool.and_eq_true_iff.1 h
  exact of_decide_eq_true hrange.2

theorem toNat_of_isUpper {c : Char} (h : c.isUpper) : c.toNat ≤ 90 :=
  (of_decide_eq_true h).2

theorem letter_of_isLower {c d : Char} (hd : d.isLower) (h : c = d ∨ c = d.toUpper) :
    c.isAlpha ∧ c.toLower = d := by
  have hall : ∀ i < 128, (Char.ofNat i).isLower →
      ((Char.ofNat i).isAlpha ∧ (Char.ofNat i).toLower = Char.ofNat i) ∧
        (Char.ofNat i).toUpper.isAlpha ∧ (Char.ofNat i).toUpper.toLower = Char.ofNat i := by
    decide +kernel
  have hle := toNat_of_isLower hd
  have hletter := hall d.toNat (by omega)
  rw [Char.ofNat_toNat] at hletter
  rcases h with rfl | rfl
  · exact (hletter hd).1
  · exact (hletter hd).2

/-- Letters are ASCII, and neither blanks nor digits. -/
theorem of_isAlpha {c : Char} (h : c.isAlpha) : c.toNat < 128 ∧ ¬ isBlank c ∧ ¬ c.isDigit := by
  have hall : ∀ i < 128, (Char.ofNat i).isAlpha →
      ¬ isBlank (Char.ofNat i) ∧ ¬ (Char.ofNat i).isDigit := by
    decide +kernel
  have hlt : c.toNat < 128 := by
    rcases Bool.or_eq_true_iff.1 h with hupper | hlower
    · exact Nat.lt_of_le_of_lt (toNat_of_isUpper hupper) (by decide)
    · exact Nat.lt_of_le_of_lt (toNat_of_isLower hlower) (by decide)
  have hc := hall c.toNat hlt
  rw [Char.ofNat_toNat] at hc
  exact ⟨hlt, hc h⟩

theorem ne_of_isAlpha {c d : Char} (hc : c.isAlpha) (hd : ¬ d.isAlpha) : c ≠ d := by
  rintro rfl
  exact hd hc

theorem Recased.letters {text name : String} (h : Recased text name)
    (hname : ∀ d ∈ name.toList, d.isLower) :
    (∀ c ∈ text.toList, c.isAlpha) ∧ text.toList.map Char.toLower = name.toList := by
  unfold Recased at h
  generalize text.toList = cs at h ⊢
  generalize name.toList = ds at h hname ⊢
  induction h with
  | nil => exact ⟨nofun, rfl⟩
  | cons hletter _ ih =>
    rw [List.forall_mem_cons] at hname
    obtain ⟨halpha, hlower⟩ := letter_of_isLower hname.1 hletter
    obtain ⟨hrest, hmap⟩ := ih hname.2
    rw [List.forall_mem_cons, List.map_cons, hlower, hmap]
    exact ⟨⟨halpha, hrest⟩, rfl⟩

theorem trim_of_isAlpha {text : String} (h : ∀ c ∈ text.toList, c.isAlpha) : trim text = text := by
  have hdrop : ∀ cs : List Char, (∀ c ∈ cs, c.isAlpha) → cs.dropWhile isBlank = cs := by
    intro cs hcs
    cases cs with
    | nil => rfl
    | cons c cs => exact List.dropWhile_cons_of_neg (of_isAlpha (hcs c List.mem_cons_self)).2.1
  have hreverse : ∀ c ∈ text.toList.reverse, c.isAlpha := by
    intro c hc
    exact h c (List.mem_reverse.1 hc)
  rw [trim, trimChars, hdrop _ h, hdrop _ hreverse, List.reverse_reverse, String.ofList_toList]

theorem Recased.lower {text name : String} (h : Recased text name)
    (hname : ∀ d ∈ name.toList, d.isLower) : lower text = name := by
  obtain ⟨halpha, hmap⟩ := h.letters hname
  rw [Text.lower, lowerAfter_of_ascii [] fun c hc => (of_isAlpha (halpha c hc)).1, hmap,
    String.ofList_toList]

/-! ## Blanks -/

/-- What trimming takes away at the two ends is blank. -/
theorem exists_trimChars (cs : List Char) :
    ∃ front back, (∀ c ∈ front, isBlank c) ∧ (∀ c ∈ back, isBlank c) ∧
      cs = front ++ trimChars cs ++ back := by
  have hblank : ∀ xs : List Char, ∀ c ∈ xs.takeWhile isBlank, isBlank c := by
    intro xs
    exact List.all_eq_true.1 List.all_takeWhile
  refine ⟨cs.takeWhile isBlank, ((cs.dropWhile isBlank).reverse.takeWhile isBlank).reverse,
    hblank cs, ?_, ?_⟩
  · intro c hc
    exact hblank _ c (List.mem_reverse.1 hc)
  · rw [trimChars, List.append_assoc, ← List.reverse_append, List.takeWhile_append_dropWhile,
      List.reverse_reverse, List.takeWhile_append_dropWhile]

theorem notMem_of_asciiLower_trim {s name : String} {c : Char} (h : asciiLower (trim s) = name)
    (hblank : ¬ isBlank c) (hname : c.toLower ∉ name.toList) : c ∉ s.toList := by
  intro hc
  obtain ⟨front, back, hfront, hback, heq⟩ := exists_trimChars s.toList
  rw [heq, List.mem_append, List.mem_append] at hc
  rcases hc with (hc | hc) | hc
  · exact hblank (hfront c hc)
  · apply hname
    rw [← h, asciiLower, trim, String.toList_ofList, String.toList_ofList]
    exact List.mem_map_of_mem hc
  · exact hblank (hback c hc)

end Text

namespace Method

/-- The names that a user may give a method. -/
def names : Method → List String
  | naive => ["naive", "recursive"]
  | stack => ["stack", "iterative"]

theorem ofName?_eq_some_iff {name : String} {m : Method} :
    ofName? name = some m ↔ name ∈ m.names := by
  constructor
  · intro h
    unfold ofName? at h
    split at h <;> cases h <;> decide
  · intro h
    cases m <;> simp only [names, List.mem_cons, List.not_mem_nil, or_false] at h <;>
      rcases h with rfl | rfl <;> rfl

theorem parse_eq_ok_iff {s : String} {m : Method} :
    parse s = .ok m ↔ Text.asciiLower (Text.trim s) ∈ m.names := by
  rw [← ofName?_eq_some_iff]
  unfold parse
  cases ofName? (Text.asciiLower (Text.trim s)) <;> simp

theorem isLower_name (m : Method) : ∀ d ∈ m.name.toList, d.isLower := by
  apply List.all_eq_true.1
  cases m <;> decide

theorem recased_names (ms : List Method) :
    ∀ p ∈ ms.map fun m => (m.name, m), Text.Recased p.1 p.2.name := by
  intro p hp
  obtain ⟨m, -, rfl⟩ := List.mem_map.1 hp
  exact .refl m.name

/-- The canonical name is read in any case. -/
theorem parse_recased {text : String} {m : Method} (h : Text.Recased text m.name) :
    parse text = .ok m := by
  obtain ⟨halpha, hmap⟩ := h.letters m.isLower_name
  rw [parse_eq_ok_iff, Text.trim_of_isAlpha halpha, Text.asciiLower, hmap, String.ofList_toList]
  cases m <;> decide

/-- No separator of a command line stands in the name of a method. -/
theorem notMem_of_parse {s : String} {m : Method} (h : parse s = .ok m) {c : Char}
    (hc : c = ',' ∨ c = '-' ∨ c = '=') : c ∉ s.toList := by
  have hname : ∀ name ∈ m.names, c.toLower ∉ name.toList := by
    rcases hc with rfl | rfl | rfl <;> cases m <;> decide
  apply Text.notMem_of_asciiLower_trim rfl
  · rcases hc with rfl | rfl | rfl <;> decide
  · exact hname _ (parse_eq_ok_iff.1 h)

theorem ne_nil_of_parse {s : String} {m : Method} (h : parse s = .ok m) : s.toList ≠ [] := by
  intro hnil
  obtain rfl := String.toList_eq_nil_iff.1 hnil
  rw [parse_eq_ok_iff] at h
  cases m <;> exact absurd h (by decide)

end Method

namespace OutputFormat

theorem ofName?_eq_some_iff {name : String} {f : OutputFormat} :
    ofName? name = some f ↔ name = f.name := by
  constructor
  · intro h
    unfold ofName? at h
    split at h <;> cases h <;> rfl
  · rintro rfl
    cases f <;> rfl

theorem parse_eq_ok_iff {s : String} {f : OutputFormat} :
    parse s = .ok f ↔ Text.asciiLower (Text.trim s) = f.name := by
  rw [← ofName?_eq_some_iff]
  unfold parse
  simp only
  cases ofName? (Text.asciiLower (Text.trim s)) <;> simp

theorem notMem_of_parse {s : String} {f : OutputFormat} (h : parse s = .ok f) {c : Char}
    (hc : c = '-' ∨ c = '=') : c ∉ s.toList := by
  apply Text.notMem_of_asciiLower_trim (parse_eq_ok_iff.1 h)
  · rcases hc with rfl | rfl <;> decide
  · rcases hc with rfl | rfl <;> cases f <;> decide

theorem ne_nil_of_parse {s : String} {f : OutputFormat} (h : parse s = .ok f) : s.toList ≠ [] := by
  intro hnil
  obtain rfl := String.toList_eq_nil_iff.1 hnil
  rw [parse_eq_ok_iff] at h
  cases f <;> exact absurd h (by decide)

end OutputFormat

end Unroll
