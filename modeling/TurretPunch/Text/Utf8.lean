namespace TurretPunch.Text

/-!
# Strict UTF-8

Decoding refuses what is not the encoding of a sequence of scalar values, and says where and why.
-/

/-- Why bytes are not UTF-8. -/
inductive Utf8Fault where
  | startByte
  | continuationByte
  | endOfData
deriving DecidableEq, Repr

/-- A fault with the position of the first byte concerned, that byte, and the number of bytes. -/
structure Utf8Error where
  fault : Utf8Fault
  position : Nat
  byte : UInt8
  count : Nat
deriving DecidableEq, Repr

/-- Whether a byte goes on with a character. -/
def isContinuation (b : UInt8) : Bool := 0x80 ≤ b && b < 0xC0

/-- Whether `b` may stand second after the start byte `a`: the encoding must be the shortest, not
of a surrogate, and not beyond the last code point. -/
def isSecond (a b : UInt8) : Bool :=
  isContinuation b &&
    (if a = 0xE0 then 0xA0 ≤ b
    else if a = 0xED then b < 0xA0
    else if a = 0xF0 then 0x90 ≤ b
    else if a = 0xF4 then b < 0x90
    else true)

/-- The six bits that a continuation byte carries. -/
def payload (b : UInt8) : Nat := b.toNat % 64

/-- The outcome of decoding one character: the character, the number of bytes it took and the bytes
that follow, or a fault and the number of bytes concerned. -/
inductive Utf8Step where
  | char (c : Char) (count : Nat) (rest : List UInt8)
  | fault (f : Utf8Fault) (count : Nat)

/-- Decodes the character that starts with the byte `a`. -/
def decodeChar (a : UInt8) (rest : List UInt8) : Utf8Step :=
  if a < 0x80 then .char (Char.ofNat a.toNat) 1 rest
  else if a < 0xC2 ∨ 0xF5 ≤ a then .fault .startByte 1
  else
    match rest with
    | [] => .fault .endOfData 1
    | b :: rest =>
      if !isSecond a b then .fault .continuationByte 1
      else if a < 0xE0 then .char (Char.ofNat (a.toNat % 32 * 64 + payload b)) 2 rest
      else
        match rest with
        | [] => .fault .endOfData 2
        | c :: rest =>
          if !isContinuation c then .fault .continuationByte 2
          else if a < 0xF0 then
            .char (Char.ofNat ((a.toNat % 16 * 64 + payload b) * 64 + payload c)) 3 rest
          else
            match rest with
            | [] => .fault .endOfData 3
            | d :: rest =>
              if !isContinuation d then .fault .continuationByte 3
              else
                .char (Char.ofNat
                  (((a.toNat % 8 * 64 + payload b) * 64 + payload c) * 64 + payload d)) 4 rest

/-- Decodes bytes after the characters `done`, which are kept in reverse. Each character takes at
least one byte, so that as much fuel as there are bytes is enough. -/
def decodeFrom : Nat → Nat → List Char → List UInt8 → Except Utf8Error (List Char)
  | _, _, done, [] => .ok done.reverse
  | 0, _, done, _ => .ok done.reverse
  | fuel + 1, position, done, a :: rest =>
    match decodeChar a rest with
    | .char c count after => decodeFrom fuel (position + count) (c :: done) after
    | .fault f count => .error ⟨f, position, a, count⟩

def decodeUtf8 (bytes : List UInt8) : Except Utf8Error (List Char) :=
  decodeFrom bytes.length 0 [] bytes

def encodeUtf8 (s : String) : List UInt8 := s.toUTF8.toList

end TurretPunch.Text
