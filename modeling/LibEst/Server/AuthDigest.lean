import LibEst.Server.AuthHeader

/-! The digest of RFC 2617 as the server computes it from the fields of a header
and from what the application has stored for a user. -/
namespace LibEst.Server.AuthDigest

open LibEst.Lib.ByteString LibEst.Server.AuthHeader

/-- A hash with the size of MD5. -/
structure Md5 where
  hash : Bytes → Bytes
  length : ∀ data, (hash data).length = 16

def estHexToStr (src : Bytes) : Bytes :=
  src.flatMap fun b => [digitByte (b.toNat / 16), digitByte (b.toNat % 16)]

theorem estHexToStr_length (src : Bytes) : (estHexToStr src).length = 2 * src.length := by
  unfold estHexToStr
  induction src with
  | nil => rfl
  | cons b rest ih =>
    rw [List.flatMap_cons, List.length_append, ih, List.length_cons, List.length_cons,
      List.length_cons, List.length_nil]
    omega

def isHexDigit (c : UInt8) : Bool := (48 ≤ c ∧ c ≤ 57) ∨ (97 ≤ c ∧ c ≤ 102)

theorem digitByte_isHexDigit : ∀ d < 16, isHexDigit (digitByte d) = true := by decide

theorem estHexToStr_isHexDigit {src : Bytes} : ∀ c ∈ estHexToStr src, isHexDigit c = true := by
  intro c hc
  unfold estHexToStr at hc
  rw [List.mem_flatMap] at hc
  obtain ⟨b, -, hc⟩ := hc
  have hlt := b.toNat_lt
  rcases List.mem_cons.mp hc with rfl | hc
  · apply digitByte_isHexDigit
    omega
  · rw [List.mem_singleton] at hc
    rw [hc]
    apply digitByte_isHexDigit
    omega

variable (md5 : Md5)

/-- The hash of the user name, the realm and the password, in hexadecimal: what
the application keeps. -/
def ha1Of (user realm pwd : Bytes) : Bytes :=
  estHexToStr (md5.hash (user ++ ascii ":" ++ realm ++ ascii ":" ++ pwd))

def ha2Of (uri : Bytes) : Bytes :=
  estHexToStr (md5.hash (ascii "POST" ++ ascii ":" ++ uri.take maxRealm))

/-- A field that is null counts as an empty text. -/
def fieldText (field : Option Bytes) (max : Nat) : Bytes := (field.getD []).take max

/-- The outer `none` is undefined: the first 32 bytes of the hash are read. -/
def estServerGenerateAuthDigest (ah : AuthHdr) (ha1 : Bytes) : Option Bytes :=
  if ha1.length < 32 then none
  else
    some (estHexToStr (md5.hash (ha1.take 32 ++ ascii ":" ++ fieldText ah.nonce maxNonce ++
      ascii ":" ++ fieldText ah.nc maxNc ++ ascii ":" ++ fieldText ah.cnonce maxNonce ++
      ascii ":" ++ ascii "auth" ++ ascii ":" ++ ha2Of md5 (fieldText ah.uri maxRealm))))

end LibEst.Server.AuthDigest
