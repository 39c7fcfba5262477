import Unroll.CommandLine.Parse
import Unroll.Proofs.Fields
import Unroll.Proofs.Names

/-!
# Arguments in their spellings

A parameter is written with its long name or its letter, its value in a word of its own or in the
same one. Reading keeps a value that stands alone pending until the next argument, so what is
compared along a line is not the state but what the state comes to: `Progress.Shows` is the line
once the pending parameter is set. `Progress.Shows.run_parameter` says that every spelling of an
argument does the same to that line.
-/

namespace Unroll

/-! ## Numbers -/

namespace Text

/-- Digits, perhaps with a plus sign before them. -/
def IsNumeral (text : String) (n : Nat) : Prop :=
  ∃ digits, IsDecimal digits n ∧ (text = digits ∨ text = "+" ++ digits)

theorem IsNumeral.readNat {text : String} {n limit : Nat} (h : IsNumeral text n) (hn : n ≤ limit) :
    parseNat limit text = .ok n := by
  obtain ⟨digits, hdigits, rfl | rfl⟩ := h
  · have hread := readDigits_decimal .tooLarge hdigits hn
    obtain ⟨c, rest, heq, hc⟩ := hdigits.exists_cons
    unfold parseNat
    rw [heq] at hread ⊢
    split
    · next hnil => cases hnil
    · next hplus =>
      obtain ⟨rfl, -⟩ := List.cons.inj hplus
      exact absurd hc (by decide)
    · exact hread
  · unfold parseNat
    rw [String.toList_append]
    exact readDigits_decimal .tooLarge hdigits hn

theorem IsNumeral.readInt64 {text : String} {n : Nat} (h : IsNumeral text n)
    (hn : n < SignedWord.bound) : parseInt64 text = .ok n := by
  obtain ⟨digits, hdigits, rfl | rfl⟩ := h
  · exact parseInt64_decimal hdigits hn
  · unfold parseInt64
    rw [String.toList_append]
    show (readDigits _ _ digits.toList).map _ = _
    rw [readDigits_decimal .tooLarge hdigits (Nat.le_sub_one_of_lt hn)]
    rfl

end Text

namespace CommandLine

/-! ## How parameters are written -/

/-- The name of a parameter behind two hyphens. -/
def Parameter.name? : Parameter → Option String
  | index => none
  | method => some "method"
  | runs => some "runs"
  | format => some "format"
  | precision => some "precision"
  | config => some "config"

/-- The letter of a parameter behind one hyphen. -/
def Parameter.letter? : Parameter → Option Char
  | index => none
  | method => some 'm'
  | runs => some 'r'
  | format => some 'f'
  | precision => none
  | config => some 'c'

/-- The words that give a parameter a value. -/
inductive Parameter.Spelled (p : Parameter) (value : String) : List String → Prop
  | long {name : String} (h : p.name? = some name) : Spelled p value ["--" ++ name, value]
  | longEquals {name : String} (h : p.name? = some name) :
      Spelled p value ["--" ++ name ++ "=" ++ value]
  | short {letter : Char} (h : p.letter? = some letter) :
      Spelled p value ["-" ++ String.singleton letter, value]
  | shortJoined {letter : Char} (h : p.letter? = some letter) :
      Spelled p value ["-" ++ String.singleton letter ++ value]
  | shortEquals {letter : Char} (h : p.letter? = some letter) :
      Spelled p value ["-" ++ String.singleton letter ++ "=" ++ value]

/-- Values that stand in any of the places for one. -/
def Typeable (value : String) : Prop :=
  ∃ c rest, value.toList = c :: rest ∧ c ≠ '-' ∧ c ≠ '='

/-! ## Words -/

theorem splitLong_append {cs : List Char} (h : '=' ∉ cs) (value : List Char) :
    splitLong (cs ++ '=' :: value) = .long (String.ofList cs) (some (String.ofList value)) := by
  have hall : ∀ c ∈ cs, (c != '=') = true := by
    intro c hc
    simp only [bne_iff_ne]
    rintro rfl
    exact h hc
  unfold splitLong
  simp [List.takeWhile_append_of_pos hall, List.dropWhile_append_of_pos hall]

section Words

variable {p : Parameter} {name : String} {letter : Char}

theorem ofText_long (h : p.name? = some name) :
    Word.ofText ("--" ++ name) = .long name none := by
  cases p <;> cases h <;> decide

theorem ofText_longEquals (h : p.name? = some name) (value : String) :
    Word.ofText ("--" ++ name ++ "=" ++ value) = .long name (some value) := by
  have hname : '=' ∉ name.toList ∧ name.toList ≠ [] := by cases p <;> cases h <;> decide
  obtain ⟨c, rest, hcons⟩ := List.exists_cons_of_ne_nil hname.2
  have hsplit := splitLong_append hname.1 value.toList
  have htext : ("--" ++ name ++ "=" ++ value).toList =
      '-' :: '-' :: c :: (rest ++ '=' :: value.toList) := by
    simp [hcons]
  rw [String.ofList_toList, String.ofList_toList, hcons] at hsplit
  unfold Word.ofText
  rw [htext]
  exact hsplit

theorem ofText_letters {word : String} {c : Char} {rest : List Char}
    (hword : word.toList = '-' :: c :: rest) (hc : c ≠ '-') :
    Word.ofText word = .letters (c :: rest) := by
  unfold Word.ofText
  rw [hword]
  split <;> simp_all

theorem ofText_letter (h : p.letter? = some letter) {word : String} (rest : List Char)
    (hword : word.toList = '-' :: letter :: rest) :
    Word.ofText word = .letters (letter :: rest) := by
  apply ofText_letters hword
  cases p <;> cases h <;> decide

theorem ofText_typeable {value : String} (h : Typeable value) : Word.ofText value = .plain := by
  obtain ⟨c, rest, heq, hc, -⟩ := h
  unfold Word.ofText
  rw [heq]
  split <;> simp_all

end Words

/-! ## What a state of the reading comes to -/

/-- Once the pending parameter is set, the line is this one. -/
def Progress.Shows (state : Progress) (line : CommandLine) : Prop :=
  state.settle = .ok { line }

namespace Progress

variable {state : Progress} {line line' : CommandLine} {p : Parameter} {value : String}

theorem shows_line (line : CommandLine) : Shows { line } line :=
  rfl

theorem shows_given (h : line.assign p value = .ok line') :
    Shows { line, pending := .given p value } line' := by
  unfold Shows settle
  simp only [h, ok_bind]
  rfl

/-- Everything that a state can be that comes to a line. -/
theorem Shows.cases (h : state.Shows line) :
    state = { line } ∨
      ∃ p value line₀, state = { line := line₀, pending := .given p value } ∧
        line₀.assign p value = .ok line := by
  obtain ⟨line₀, pending, ended⟩ := state
  unfold Shows settle at h
  cases pending with
  | nothing =>
    left
    exact Except.ok.inj h
  | awaiting p => cases h
  | given p value =>
    right
    cases hassign : line₀.assign p value with
    | error stop =>
      simp only [hassign, error_bind, reduceCtorEq] at h
    | ok next =>
      simp only [hassign, ok_bind] at h
      cases h
      exact ⟨p, value, line₀, rfl, hassign⟩

theorem Shows.optionsEnded (h : state.Shows line) : state.optionsEnded = false := by
  rcases h.cases with rfl | ⟨p, value, line₀, rfl, -⟩ <;> rfl

theorem Shows.plain_eq (h : state.Shows line) (word : String) :
    state.plain word = state.index word := by
  rcases h.cases with rfl | ⟨p, value, line₀, rfl, -⟩ <;> rfl

theorem isSome_n_of_assign_index (h : line.assign .index value = .ok line') : line'.n.isSome := by
  unfold assign at h
  obtain ⟨-, -, h⟩ := Config.bind_eq_ok_iff.1 h
  obtain ⟨n, -, h⟩ := Config.bind_eq_ok_iff.1 h
  cases h
  rfl

theorem n_of_assign (hp : p ≠ .index) (h : line.assign p value = .ok line') : line'.n = line.n := by
  cases p with
  | index => exact absurd rfl hp
  | method =>
    obtain ⟨methods, -, h⟩ := Config.bind_eq_ok_iff.1 h
    cases h
    rfl
  | config =>
    obtain ⟨-, -, h⟩ := Config.bind_eq_ok_iff.1 h
    split at h
    · cases h
    · cases h
      rfl
  | _ =>
    obtain ⟨-, -, h⟩ := Config.bind_eq_ok_iff.1 h
    obtain ⟨v, -, h⟩ := Config.bind_eq_ok_iff.1 h
    cases h
    rfl

theorem Shows.hasIndex (h : state.Shows line) (hn : line.n = none) : state.hasIndex = false := by
  rcases h.cases with rfl | ⟨p, value, line₀, rfl, hassign⟩
  · simp [Progress.hasIndex, hn]
  · cases p with
    | index =>
      have hsome := isSome_n_of_assign_index hassign
      rw [hn] at hsome
      cases hsome
    | _ =>
      have hkept := n_of_assign (by decide) hassign
      simp [Progress.hasIndex, ← hkept, hn]

/-! ## One argument -/

theorem Shows.parameter_some (h : state.Shows line) (hassign : line.assign p value = .ok line') :
    state.parameter p (some value) = .ok { line := line' } := by
  unfold Progress.parameter
  rw [show state.settle = _ from h, ok_bind]
  simp only [hassign, ok_bind]
  rfl

theorem Shows.parameter_none (h : state.Shows line) (p : Parameter) :
    state.parameter p none = .ok { line, pending := .awaiting p } := by
  unfold Progress.parameter
  rw [show state.settle = _ from h, ok_bind]
  rfl

theorem Shows.switch (h : state.Shows line) {s : Switch} (hturn : line.turn s = .ok line') :
    state.switch s = .ok { line := line' } := by
  unfold Progress.switch
  rw [show state.settle = _ from h, ok_bind]
  simp only [hturn, ok_bind]
  rfl

theorem Shows.step_eq (h : state.Shows line) (word : String) :
    state.step word =
      match Word.ofText word with
      | .endOfOptions => .ok { state with optionsEnded := true }
      | .long name value => state.long name value
      | .letters letters => state.letters letters
      | .plain => state.plain word := by
  unfold Progress.step
  rw [h.optionsEnded]
  rfl

theorem ofLong?_name {name : String} (h : p.name? = some name) :
    Named.ofLong? name = some (.parameter p) := by
  cases p <;> cases h <;> rfl

theorem ofLetter?_letter {letter : Char} (h : p.letter? = some letter) :
    Named.ofLetter? letter = some (.parameter p) := by
  cases p <;> cases h <;> rfl

theorem step_awaiting (hvalue : Typeable value) :
    step { line, pending := .awaiting p } value = .ok { line, pending := .given p value } := by
  unfold Progress.step
  rw [ofText_typeable hvalue]
  rfl

theorem attached?_of_typeable (h : Typeable value) : attached? value.toList = some value := by
  obtain ⟨c, rest, heq, -, hc⟩ := h
  unfold attached?
  split
  · next hnil => rw [hnil] at heq; cases heq
  · next hequals =>
    rw [hequals] at heq
    exact absurd (List.cons.inj heq).1.symm hc
  · rw [String.ofList_toList]

/-- However a parameter is written, its value is assigned. -/
theorem Shows.run_parameter (h : state.Shows line) {words : List String}
    (hwords : p.Spelled value words) (hvalue : Typeable value)
    (hassign : line.assign p value = .ok line') :
    ∃ next, words.foldlM Progress.step state = .ok next ∧ next.Shows line' := by
  cases hwords with
  | @long name hname =>
    refine ⟨_, ?_, shows_given hassign⟩
    rw [List.foldlM_cons, h.step_eq, ofText_long hname]
    simp only [Progress.long, ofLong?_name hname, h.parameter_none, ok_bind, List.foldlM_cons,
      step_awaiting hvalue]
    rfl
  | @longEquals name hname =>
    refine ⟨_, ?_, shows_line line'⟩
    rw [List.foldlM_cons, h.step_eq, ofText_longEquals hname]
    simp only [Progress.long, ofLong?_name hname, h.parameter_some hassign, ok_bind]
    rfl
  | @short letter hletter =>
    refine ⟨_, ?_, shows_given hassign⟩
    rw [List.foldlM_cons, h.step_eq, ofText_letter hletter [] (by simp)]
    simp only [Progress.letters, ofLetter?_letter hletter, attached?, h.parameter_none, ok_bind,
      List.foldlM_cons, step_awaiting hvalue]
    rfl
  | @shortJoined letter hletter =>
    refine ⟨_, ?_, shows_line line'⟩
    rw [List.foldlM_cons, h.step_eq, ofText_letter hletter value.toList (by simp)]
    simp only [Progress.letters, ofLetter?_letter hletter, attached?_of_typeable hvalue,
      h.parameter_some hassign, ok_bind]
    rfl
  | @shortEquals letter hletter =>
    refine ⟨_, ?_, shows_line line'⟩
    rw [List.foldlM_cons, h.step_eq, ofText_letter hletter ('=' :: value.toList) (by simp)]
    simp only [Progress.letters, ofLetter?_letter hletter, attached?, String.ofList_toList,
      h.parameter_some hassign, ok_bind]
    rfl

theorem Shows.run_index (h : state.Shows line) (hn : line.n = none) (hvalue : Typeable value)
    (hassign : line.assign .index value = .ok line') :
    ∃ next, [value].foldlM Progress.step state = .ok next ∧ next.Shows line' := by
  refine ⟨_, ?_, shows_given hassign⟩
  rw [List.foldlM_cons, h.step_eq, ofText_typeable hvalue]
  simp only [h.plain_eq, Progress.index, h.hasIndex hn]
  rw [show state.settle = _ from h]
  rfl

end Progress

/-- A count that stays at the largest value of its type. -/
def raised (v : UInt8) (count : Nat) : UInt8 :=
  UInt8.ofNat (min (v.toNat + count) 255)

theorem toNat_raised (v : UInt8) (count : Nat) :
    (raised v count).toNat = min (v.toNat + count) 255 := by
  have hlt : min (v.toNat + count) 255 < UInt8.size := by
    unfold UInt8.size
    omega
  exact UInt8.toNat_ofNat_of_lt' hlt

theorem raised_zero (v : UInt8) : raised v 0 = v := by
  have hle : v.toNat ≤ 255 := Nat.le_of_lt_succ v.toNat_lt
  rw [raised, Nat.add_zero, Nat.min_eq_left hle, UInt8.ofNat_toNat]

theorem raised_raised (v : UInt8) (first second : Nat) :
    raised (raised v first) second = raised v (first + second) := by
  rw [raised, toNat_raised, raised]
  congr 1
  omega

theorem turn_verbose (line : CommandLine) :
    line.turn .verbose = .ok { line with verbosity := raised line.verbosity 1 } := by
  have hcount : (if line.verbosity = 255 then 255 else line.verbosity + 1) =
      raised line.verbosity 1 := by
    have hlt := line.verbosity.toNat_lt
    apply UInt8.toNat_inj.1
    rw [toNat_raised]
    by_cases h : line.verbosity = 255
    · simp [h]
    · have hne : line.verbosity.toNat ≠ 255 := fun heq => h (UInt8.toNat_inj.1 heq)
      rw [if_neg h, UInt8.toNat_add, UInt8.toNat_one]
      omega
  rw [turn, hcount]

/-- Several switches behind one hyphen. -/
theorem Progress.Shows.letters_verbose {state : Progress} {line : CommandLine}
    (h : state.Shows line) (count : Nat) :
    ∃ next, state.letters (List.replicate count 'v') = .ok next ∧
      next.Shows { line with verbosity := raised line.verbosity count } := by
  induction count generalizing state line with
  | zero =>
    rw [raised_zero]
    exact ⟨state, rfl, h⟩
  | succ count ih =>
    obtain ⟨next, hnext, hshows⟩ :=
      ih (Progress.shows_line { line with verbosity := raised line.verbosity 1 })
    rw [raised_raised, Nat.add_comm] at hshows
    refine ⟨next, ?_, hshows⟩
    rw [List.replicate_succ, letters]
    simp only [Named.ofLetter?, h.switch (turn_verbose line), ok_bind]
    exact hnext

end CommandLine

end Unroll
