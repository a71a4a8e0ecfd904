/-!
# Strict UTF-8

A byte string is text when it is a sequence of encoded scalar values, each in its shortest form.
Overlong forms, surrogates, values past the last scalar and cut sequences are all refused.
-/

namespace ExprShell.Utf8

/-- The six bits of a byte that continues a sequence. -/
def continuation? (byte : UInt8) : Option Nat :=
  if 0x80 ≤ byte ∧ byte < 0xC0 then some (byte.toNat - 0x80) else none

/-- The scalar value with a given code, if the code is one and is not below the least code that
needs so many bytes. -/
def scalar? (least code : Nat) : Option Char :=
  if least ≤ code ∧ code.isValidChar then some (Char.ofNat code) else none

/-- The text that a byte string encodes. -/
def decode? : List UInt8 -> Option (List Char)
  | [] => some []
  | lead :: rest =>
    if lead < 0x80 then
      return Char.ofNat lead.toNat :: (← decode? rest)
    else if lead < 0xC0 then none
    else if lead < 0xE0 then
      match rest with
      | second :: rest => do
        let low ← continuation? second
        let scalar ← scalar? 0x80 ((lead.toNat - 0xC0) * 64 + low)
        return scalar :: (← decode? rest)
      | [] => none
    else if lead < 0xF0 then
      match rest with
      | second :: third :: rest => do
        let high ← continuation? second
        let low ← continuation? third
        let scalar ← scalar? 0x800 (((lead.toNat - 0xE0) * 64 + high) * 64 + low)
        return scalar :: (← decode? rest)
      | _ => none
    else if lead < 0xF8 then
      match rest with
      | second :: third :: fourth :: rest => do
        let high ← continuation? second
        let middle ← continuation? third
        let low ← continuation? fourth
        let scalar ← scalar? 0x10000
          ((((lead.toNat - 0xF0) * 64 + high) * 64 + middle) * 64 + low)
        return scalar :: (← decode? rest)
      | _ => none
    else none

/-- The bytes that encode a text. -/
def encode (text : String) : List UInt8 := text.toUTF8.data.toList

end ExprShell.Utf8
