/-!
# Parts of a text by offset

Offsets into a text are counted in the bytes of its UTF-8 form, and a part is cut out between two
offsets. There is no part if an offset lies inside a character. The parts before and behind an
offset make up the text, which `append_of_takeBytes?_of_dropBytes?` says.
-/

namespace Unroll.Text

/-- The characters behind the first `n` bytes. -/
def dropBytes? : Nat → List Char → Option (List Char)
  | 0, cs => some cs
  | _ + 1, [] => none
  | n + 1, c :: rest => if c.utf8Size ≤ n + 1 then dropBytes? (n + 1 - c.utf8Size) rest else none

/-- The characters of the first `n` bytes. -/
def takeBytes? : Nat → List Char → Option (List Char)
  | 0, _ => some []
  | _ + 1, [] => none
  | n + 1, c :: rest =>
    if c.utf8Size ≤ n + 1 then (takeBytes? (n + 1 - c.utf8Size) rest).map (c :: ·) else none

/-- The two parts at an offset make up the whole. -/
theorem append_of_takeBytes?_of_dropBytes? {n : Nat} {cs front back : List Char}
    (hfront : takeBytes? n cs = some front) (hback : dropBytes? n cs = some back) :
    front ++ back = cs := by
  fun_induction takeBytes? n cs generalizing front with
  | case1 => simp_all [dropBytes?]
  | case2 => simp at hfront
  | case3 n c rest hc ih =>
    obtain ⟨tail, htail, rfl⟩ := Option.map_eq_some_iff.1 hfront
    simp only [dropBytes?, hc, ↓reduceIte] at hback
    simp [ih htail hback]
  | case4 => simp at hfront

/-- The part of a text from one offset up to another one. -/
def slice? (s : String) (start stop : Nat) : Option String := do
  let rest ← dropBytes? start s.toList
  return String.ofList (← takeBytes? (stop - start) rest)

/-- The part of a text from an offset on. -/
def sliceFrom? (s : String) (start : Nat) : Option String :=
  (dropBytes? start s.toList).map String.ofList

end Unroll.Text
