/-!
# Control sequences of a terminal

A text for a terminal may hold control characters and sequences that change how it looks: escape
sequences, control sequences, device control strings and operating system commands. `plainText`
leaves out all of them and keeps what shows. A text without control characters stays as it is, which
`plainText_eq_self` says.
-/

namespace Unroll.Text.Terminal

/-- What kind of sequence the next character belongs to. -/
inductive Mode where
  /-- None: the character shows. -/
  | text
  /-- An escape sequence, behind its first character. -/
  | escape
  /-- An escape sequence, behind an intermediate character. -/
  | intermediate
  /-- A control sequence. -/
  | control
  /-- A device control string, behind its first character. -/
  | device
  /-- The parameters of a device control string. -/
  | deviceParameters
  /-- The intermediate characters of a device control string. -/
  | deviceIntermediate
  /-- The contents of a string. -/
  | string
  /-- The contents of an operating system command. -/
  | command
  deriving DecidableEq, Repr

/-- Whether the code of a character lies between two bounds. -/
def within (low high : Nat) (c : Char) : Bool :=
  low ≤ c.toNat && c.toNat ≤ high

def isControl (c : Char) : Bool :=
  c.toNat < 0x20 || c.toNat = 0x7F

/-- The control characters that show as blanks or line ends. -/
def isLayout (c : Char) : Bool :=
  c = '\t' || c = '\n' || c = '\x0c' || c = '\r'

/-- Intermediate characters of a sequence. -/
def isIntermediate (c : Char) : Bool :=
  within 0x20 0x2F c

/-- Characters that end an escape sequence. -/
def isEscapeFinal (c : Char) : Bool :=
  within 0x30 0x7E c

/-- Characters that end a control sequence. -/
def isControlFinal (c : Char) : Bool :=
  within 0x40 0x7E c

/-- Whether the byte that ends a string is among the bytes of a character. -/
def endsString (c : Char) : Bool :=
  (String.utf8EncodeChar c).contains 0x9C

/-- The mode after a character, apart from the characters that end every sequence. -/
def Mode.after (c : Char) : Mode → Mode
  | text => text
  | escape =>
    if c = '[' then control
    else if c = ']' then command
    else if c = 'P' then device
    else if c = 'X' || c = '^' || c = '_' then string
    else if isIntermediate c then intermediate
    else if isEscapeFinal c || isLayout c then text
    else escape
  | intermediate => if isEscapeFinal c || isLayout c then text else intermediate
  | control => if isControlFinal c || isLayout c then text else control
  | device =>
    if isIntermediate c then deviceIntermediate
    else if within 0x30 0x3F c then deviceParameters
    else if isControlFinal c then string
    else device
  | deviceParameters =>
    if isIntermediate c then deviceIntermediate
    else if within 0x3C 0x7E c then string
    else deviceParameters
  | deviceIntermediate => if isEscapeFinal c then string else deviceIntermediate
  | string => if endsString c then text else string
  | command => if c = '\x07' then text else command

/-- Whether a character shows. Layout characters show also inside escape and control sequences,
which they break off. -/
def Mode.showsChar (c : Char) : Mode → Bool
  | text => !isControl c || isLayout c
  | escape | intermediate | control => isLayout c
  | device | deviceParameters | deviceIntermediate | string | command => false

/-- The characters that show, from a mode on. Two control characters break off every sequence, and
the escape character starts a new one. -/
def shown : Mode → List Char → List Char
  | _, [] => []
  | mode, c :: rest =>
    if c = '\x1b' then shown .escape rest
    else if c = '\x18' || c = '\x1a' then shown .text rest
    else if mode.showsChar c then c :: shown (mode.after c) rest
    else shown (mode.after c) rest

/-- The part of a text that shows. -/
def plainText (s : String) : String :=
  String.ofList (shown .text s.toList)

theorem shown_text_eq_self {cs : List Char} (h : ∀ c ∈ cs, isControl c = false) :
    shown .text cs = cs := by
  induction cs with
  | nil => rfl
  | cons c rest ih =>
    have hc : isControl c = false := h c (by simp)
    have escape : c ≠ '\x1b' := by rintro rfl; revert hc; decide
    have cancel : c ≠ '\x18' := by rintro rfl; revert hc; decide
    have substitute : c ≠ '\x1a' := by rintro rfl; revert hc; decide
    simp [shown, Mode.showsChar, Mode.after, escape, cancel, substitute, hc,
      ih fun d hd => h d (by simp [hd])]

/-- A text without control characters shows as it is. -/
theorem plainText_eq_self {s : String} (h : ∀ c ∈ s.toList, isControl c = false) :
    plainText s = s := by
  simp [plainText, shown_text_eq_self h]

end Unroll.Text.Terminal
