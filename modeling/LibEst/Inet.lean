import LibEst.Lib.ByteString

/-! The texts of network addresses: `inet_pton` for both families, as the C library has it. -/
namespace LibEst.Inet

open LibEst.Lib.ByteString

/-- The octets that are complete, the one being read, and whether it has a digit yet. -/
def inetPton4From (octets : Bytes) (octet : Nat) (sawDigit : Bool) : Bytes → Option Bytes
  | [] => if sawDigit ∧ octets.length = 3 then some (octets ++ [UInt8.ofNat octet]) else none
  | ch :: rest =>
      if 48 ≤ ch ∧ ch ≤ 57 then
        let new := octet * 10 + (ch.toNat - 48)
        if sawDigit ∧ octet = 0 then none
        else if 255 < new then none
        else inetPton4From octets new true rest
      else if ch = 46 ∧ sawDigit then
        if octets.length = 3 then none
        else inetPton4From (octets ++ [UInt8.ofNat octet]) 0 false rest
      else none

/-- The bytes of an address. -/
def asAddress (n : Nat) (bytes : Bytes) : Option (Vector UInt8 n) :=
  if h : bytes.length = n then some ⟨bytes.toArray, by simp [h]⟩ else none

def inetPton4 (src : Bytes) : Option (Vector UInt8 4) :=
  (inetPton4From [] 0 false src).bind (asAddress 4)

def hexDigitValue (ch : UInt8) : Option Nat :=
  if 48 ≤ ch ∧ ch ≤ 57 then some (ch.toNat - 48)
  else if 97 ≤ ch ∧ ch ≤ 102 then some (ch.toNat - 87)
  else if 65 ≤ ch ∧ ch ≤ 70 then some (ch.toNat - 55)
  else none

/-- The bytes so far, where the two colons stand among them, and the group being read,
which begins at `curtok` and may turn out to be an address of the other family. -/
def inetPton6From (bytes : Bytes) (colonp : Option Nat) (val digits : Nat) (curtok : Bytes) :
    Bytes → Option (Bytes × Option Nat)
  | [] =>
      if digits = 0 then some (bytes, colonp)
      else if 16 < bytes.length + 2 then none
      else some (bytes ++ [UInt8.ofNat (val / 256), UInt8.ofNat (val % 256)], colonp)
  | ch :: rest =>
      match hexDigitValue ch with
      | some digit =>
          if digits = 4 then none
          else inetPton6From bytes colonp (val * 16 + digit) (digits + 1) curtok rest
      | none =>
          if ch = 58 then
            if digits = 0 then
              if colonp ≠ none then none
              else inetPton6From bytes (some bytes.length) 0 0 rest rest
            else if rest = [] then none
            else if 16 < bytes.length + 2 then none
            else
              inetPton6From (bytes ++ [UInt8.ofNat (val / 256), UInt8.ofNat (val % 256)]) colonp
                0 0 rest rest
          else if ch = 46 ∧ bytes.length + 4 ≤ 16 then
            (inetPton4 curtok).map fun tail => (bytes ++ tail.toList, colonp)
          else none

/-- The two colons stand for as many zeros as are missing, and for at least one. -/
def expandColons (bytes : Bytes) : Option Nat → Option Bytes
  | none => some bytes
  | some n =>
      if bytes.length = 16 then none
      else some (bytes.take n ++ List.replicate (16 - bytes.length) 0 ++ bytes.drop n)

def inetPton6 (src : Bytes) : Option (Vector UInt8 16) :=
  let read (text : Bytes) : Option (Vector UInt8 16) := do
    let (bytes, colonp) ← inetPton6From [] none 0 0 text text
    let bytes ← expandColons bytes colonp
    asAddress 16 bytes
  match src with
  | [] => none
  | 58 :: 58 :: rest => read (58 :: rest)
  | 58 :: _ => none
  | _ => read src

example : inetPton4 (ascii "192.0.2.10") = some #v[192, 0, 2, 10] := by decide

example : inetPton6 (ascii "fe80::1:192.0.2.10") =
    some #v[254, 128, 0, 0, 0, 0, 0, 0, 0, 0, 0, 1, 192, 0, 2, 10] := by decide

end LibEst.Inet
