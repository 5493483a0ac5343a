import TurretPunch.Text.Quoted

namespace TurretPunch.Text

/-!
# Texts

A text that comes from outside is a list of code points. Sixteen bits write a character beyond the
first 65536 code points as a pair of surrogates; where such writing is let in, half of a pair can
stand alone. It is no character, but it is kept and shown again, and it has a place in the order of
texts by code points. Only a file cannot hold it.
-/

/-- A code point: a character, or half of a surrogate pair that stands alone. -/
inductive Point where
  | char (c : Char)
  | half (surrogate : Nat)
deriving DecidableEq, Repr

namespace Point

def code : Point → Nat
  | char c => c.toNat
  | half surrogate => surrogate

def ofCode (n : Nat) : Point := if n.isValidChar then char (Char.ofNat n) else half n

/-- The character, if the code point is one. -/
def char? : Point → Option Char
  | char c => some c
  | half _ => none

/-- The character that is written where there is only room for characters. -/
def replacement : Point → Char
  | char c => c
  | half _ => '\uFFFD'

/-- A code point inside a quotation that ends with `quote`. -/
def quoted (quote : Char) : Point → List Char
  | char c => quotedChar quote c
  | half surrogate => '\\' :: 'u' :: hexadecimal 4 surrogate

end Point

/-- A text as code points. -/
structure Points where
  toList : List Point
deriving DecidableEq, Repr, Inhabited

namespace Points

def ofChars (cs : List Char) : Points := ⟨cs.map .char⟩

def ofString (s : String) : Points := ofChars s.toList

instance : Coe String Points := ⟨ofString⟩

/-- The text as a string, if it has only characters. -/
def string? (p : Points) : Option String := (p.toList.mapM Point.char?).map String.ofList

/-- The characters of a text, with a replacement for what is none. -/
def chars (p : Points) : List Char := p.toList.map (·.replacement)

/-- The text as a string, with a replacement for what is no character. -/
def plain (p : Points) : String := String.ofList p.chars

def length (p : Points) : Nat := p.toList.length

def append (p q : Points) : Points := ⟨p.toList ++ q.toList⟩

instance : Append Points := ⟨append⟩

def join (texts : List Points) : Points := ⟨texts.flatMap (·.toList)⟩

/-- Texts with another one between each two of them. -/
def intercalate (between : Points) (texts : List Points) : Points :=
  ⟨between.toList.intercalate (texts.map (·.toList))⟩

/-- Whether a text stands at the start of another. -/
def isPrefixOf (p q : Points) : Bool := p.toList.isPrefixOf q.toList

/-- Fills a text with spaces on the right up to a number of columns. -/
def padRight (width : Nat) (p : Points) : Points :=
  p ++ ofChars (List.replicate (width - p.length) ' ')

def quoted (p : Points) : String :=
  let quote := quoteFor (p.toList.filterMap Point.char?)
  String.ofList (quote :: p.toList.flatMap (Point.quoted quote) ++ [quote])

/-- Whether a list of code points comes before another, by the first one that differs. -/
def precedes : List Point → List Point → Bool
  | _, [] => false
  | [], _ :: _ => true
  | p :: ps, q :: qs => p.code < q.code || p.code = q.code && precedes ps qs

theorem mapM_char?_map_char (cs : List Char) :
    (cs.map Point.char).mapM Point.char? = some cs := by
  induction cs with
  | nil => rfl
  | cons c cs ih => simp [Point.char?, ih]

@[simp] theorem string?_ofString (s : String) : (ofString s).string? = some s := by
  rw [string?, ofString, ofChars, mapM_char?_map_char, Option.map_some, String.ofList_toList]

@[simp] theorem chars_ofChars (cs : List Char) : (ofChars cs).chars = cs := by
  simp [chars, ofChars, Function.comp_def, Point.replacement]

@[simp] theorem chars_append (p q : Points) : (p ++ q).chars = p.chars ++ q.chars :=
  List.map_append

end Points

end TurretPunch.Text
