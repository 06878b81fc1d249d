import RunParams.Text.Literal

/-!
# UTF-8

Strict decoding. The first byte that cannot be read ends it, and the error says which bytes are at fault and why: those of the
longest start of a character that was seen, or the one byte that starts none.
-/

namespace RunParams.Text.Utf8

/-- Why bytes are not UTF-8. -/
inductive Reason
  /-- No character starts with this byte. -/
  | invalidStart
  /-- A character is broken off by a byte that does not continue it. -/
  | invalidContinuation
  /-- A character is broken off by the end of the input. -/
  | unexpectedEnd
  deriving DecidableEq

/-- The faulty bytes of an input: `bytes` is never empty and stands at `position`. -/
structure DecodeError where
  position : Nat
  bytes : List UInt8
  reason : Reason
  deriving DecidableEq

/-- The wording of a reason. -/
def Reason.message : Reason → String
  | .invalidStart => "invalid start byte"
  | .invalidContinuation => "invalid continuation byte"
  | .unexpectedEnd => "unexpected end of data"

/-- The wording of a decoding error. -/
def DecodeError.message (e : DecodeError) : String :=
  let place := match e.bytes with
    | [b] => s!"byte 0x{String.ofList (hex 2 b.toNat)} in position {e.position}"
    | bs => s!"bytes in position {e.position}-{e.position + bs.length - 1}"
  s!"'utf-8' codec can't decode {place}: {e.reason.message}"

/-- The bits of a first byte, and the ranges of the bytes that continue it. Short forms of characters that have a shorter one,
surrogates and what lies beyond the last code point are ruled out by the range of the second byte. -/
def head? (b : UInt8) : Option (Nat × List (Nat × Nat)) :=
  let n := b.toNat
  let any := (0x80, 0xBF)
  if n < 0x80 then some (n, [])
  else if n < 0xC2 then none
  else if n < 0xE0 then some (n - 0xC0, [any])
  else if n = 0xE0 then some (0, [(0xA0, 0xBF), any])
  else if n = 0xED then some (0xD, [(0x80, 0x9F), any])
  else if n < 0xF0 then some (n - 0xE0, [any, any])
  else if n = 0xF0 then some (0, [(0x90, 0xBF), any, any])
  else if n < 0xF4 then some (n - 0xF0, [any, any, any])
  else if n = 0xF4 then some (4, [(0x80, 0x8F), any, any])
  else none

/-- Reads the bytes that continue a character: its code point and how many bytes there were, or how many fitted and why the
next did not. -/
def continued (point : Nat) : List (Nat × Nat) → List UInt8 → Except (Nat × Reason) Nat
  | [], _ => .ok point
  | _ :: _, [] => .error (0, .unexpectedEnd)
  | range :: ranges, b :: bs =>
    if range.1 ≤ b.toNat ∧ b.toNat ≤ range.2 then
      match continued (point * 64 + (b.toNat - 0x80)) ranges bs with
      | .ok p => .ok p
      | .error (n, reason) => .error (n + 1, reason)
    else .error (0, .invalidContinuation)

/-- Decodes the bytes from `position` on; `pending` counts the bytes that belong to a character already read. -/
def decodeFrom (position pending : Nat) : List UInt8 → Except DecodeError (List Char)
  | [] => .ok []
  | b :: bs =>
    match pending with
    | n + 1 => decodeFrom (position + 1) n bs
    | 0 => match head? b with
      | none => .error ⟨position, [b], .invalidStart⟩
      | some (bits, ranges) => match continued bits ranges bs with
        | .error (n, reason) => .error ⟨position, b :: bs.take n, reason⟩
        | .ok point => (decodeFrom (position + 1) ranges.length bs).map (Char.ofNat point :: ·)

/-- The text that the bytes stand for. -/
def decode (bytes : List UInt8) : Except DecodeError (List Char) :=
  decodeFrom 0 0 bytes

end RunParams.Text.Utf8
