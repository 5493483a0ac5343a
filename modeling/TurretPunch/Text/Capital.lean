namespace TurretPunch.Text

/-!
# Capitals

The words of a program are spelled with the letters `A` to `Z` and with digits. `capitals` is the
full Unicode mapping to upper case on every character whose upper case has such a letter in it, and
leaves all other characters alone: none of them can become part of a word.
-/

/-- The characters beyond ASCII whose upper case has a letter `A` to `Z` in it. -/
def capitalForms : List (Nat × List Char) := [
  (0xDF, ['S', 'S']), (0x131, ['I']), (0x149, ['ʼ', 'N']), (0x17F, ['S']),
  (0x1F0, ['J', '\u030C']), (0x1E96, ['H', '\u0331']), (0x1E97, ['T', '\u0308']),
  (0x1E98, ['W', '\u030A']), (0x1E99, ['Y', '\u030A']), (0x1E9A, ['A', 'ʾ']),
  (0xFB00, ['F', 'F']), (0xFB01, ['F', 'I']), (0xFB02, ['F', 'L']), (0xFB03, ['F', 'F', 'I']),
  (0xFB04, ['F', 'F', 'L']), (0xFB05, ['S', 'T']), (0xFB06, ['S', 'T'])]

/-- The upper case of one character, as far as the letters `A` to `Z` go. -/
def capital (c : Char) : List Char :=
  if c.toNat < 0x80 then [c.toUpper]
  else (capitalForms.lookup c.toNat).getD [c]

/-- The upper case of a text, as far as the letters `A` to `Z` go. -/
def capitals (cs : List Char) : List Char := cs.flatMap capital

end TurretPunch.Text
