/-
The UTF-8 form of texts. A machine reads the bytes one at a time and cuts them into pieces: a scalar
value, or a maximal part that no well-formed sequence begins with. A text decodes strictly when all
its pieces are scalar values; decoding leniently puts the replacement character for the others.
Encoding writes the replacement character for a surrogate that has no partner.
-/
import SourceLint.Text

namespace SourceLint.Text

/-! ### Reading -/

/-- A sequence that has begun: the continuation bytes still owed, the bounds of the next one, and
the value of the bits read so far. -/
structure Pending where
  /-- How many more continuation bytes follow after the next one. -/
  later : Nat
  low : UInt8
  high : UInt8
  value : Nat

/-- What the first byte of a sequence says. -/
inductive Lead where
  | scalar (value : Nat)
  | pending (pending : Pending)
  | malformed

/-- The reading of a byte between sequences. -/
def Lead.ofByte (byte : UInt8) : Lead :=
  if byte ≤ 0x7F then .scalar byte.toNat
  else if 0xC2 ≤ byte && byte ≤ 0xDF then .pending ⟨0, 0x80, 0xBF, byte.toNat - 0xC0⟩
  else if byte = 0xE0 then .pending ⟨1, 0xA0, 0xBF, 0⟩
  else if byte = 0xED then .pending ⟨1, 0x80, 0x9F, 0xD⟩
  else if 0xE1 ≤ byte && byte ≤ 0xEF then .pending ⟨1, 0x80, 0xBF, byte.toNat - 0xE0⟩
  else if byte = 0xF0 then .pending ⟨2, 0x90, 0xBF, 0⟩
  else if 0xF1 ≤ byte && byte ≤ 0xF3 then .pending ⟨2, 0x80, 0xBF, byte.toNat - 0xF0⟩
  else if byte = 0xF4 then .pending ⟨2, 0x80, 0x8F, 4⟩
  else .malformed

/-- The pieces of a byte sequence: `some` scalar value, or `none` for an ill-formed part. -/
def piecesFrom : Option Pending → List UInt8 → List (Option Nat)
  | none, [] => []
  | some _, [] => [none]
  | none, byte :: rest =>
    match Lead.ofByte byte with
    | .scalar value => some value :: piecesFrom none rest
    | .pending pending => piecesFrom (some pending) rest
    | .malformed => none :: piecesFrom none rest
  | some pending, byte :: rest =>
    if pending.low ≤ byte && byte ≤ pending.high then
      let value := pending.value * 0x40 + (byte.toNat - 0x80)
      match pending.later with
      | 0 => some value :: piecesFrom none rest
      | later + 1 => piecesFrom (some ⟨later, 0x80, 0xBF, value⟩) rest
    else
      none ::
        match Lead.ofByte byte with
        | .scalar value => some value :: piecesFrom none rest
        | .pending pending => piecesFrom (some pending) rest
        | .malformed => none :: piecesFrom none rest

/-- The pieces of a byte sequence from its start. -/
def pieces (bytes : List UInt8) : List (Option Nat) := piecesFrom none bytes

/-- The text of a well-formed byte sequence. A byte order mark stays in the text. -/
def decode? (bytes : List UInt8) : Option Text :=
  (pieces bytes).mapM id |>.map fun scalars => scalars.flatMap ofScalar

/-- The text of any byte sequence, with the replacement character for each ill-formed part. -/
def decodeLenient (bytes : List UInt8) : Text :=
  (pieces bytes).flatMap fun piece => ofScalar (piece.getD 0xFFFD)

/-! ### Writing -/

/-- The bytes of a scalar value. -/
def encodeScalar (scalar : Nat) : List UInt8 :=
  if scalar < 0x80 then [scalar.toUInt8]
  else if scalar < 0x800 then [(0xC0 + scalar / 0x40).toUInt8, (0x80 + scalar % 0x40).toUInt8]
  else if scalar < 0x10000 then
    [(0xE0 + scalar / 0x1000).toUInt8, (0x80 + scalar / 0x40 % 0x40).toUInt8,
      (0x80 + scalar % 0x40).toUInt8]
  else
    [(0xF0 + scalar / 0x40000).toUInt8, (0x80 + scalar / 0x1000 % 0x40).toUInt8,
      (0x80 + scalar / 0x40 % 0x40).toUInt8, (0x80 + scalar % 0x40).toUInt8]

/-- The bytes of a text. -/
def encode (text : Text) : List UInt8 := text.scalars.flatMap encodeScalar

end SourceLint.Text
