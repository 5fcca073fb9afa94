import LibEst.Base64

/-! What the library sees of OpenSSL: certificates, certificate requests and TLS
sessions as the data it reads from them, and the operations it calls as the
fields of a structure. -/
namespace LibEst.OpenSsl

open LibEst.Base64 LibEst.Lib.ByteString

/-- Numeric identifier of an object in OpenSSL's table. -/
abbrev Nid := Nat

def nidChallengePassword : Nid := 54

/-- An entry of a distinguished name. OpenSSL keeps a zero byte behind the data. -/
structure NameEntry where
  nid : Nid
  data : Bytes
  deriving DecidableEq

structure X509 where
  subject : List NameEntry
  /-- The key purposes of the extended key usage extension, null without it. -/
  extKeyUsage : Option (List Bytes)
  serial : Nat
  deriving DecidableEq

/-- The types whose values are character strings. -/
inductive StringType where
  | utf8
  | printable
  | ia5
  | t61
  | bmp
  | universal
  | numeric
  | visible
  deriving DecidableEq

/-- The other types that OpenSSL keeps in an `ASN1_STRING`. -/
inductive OctetType where
  | integer
  | enumerated
  | bitString
  | octetString
  | sequence
  | set
  | utcTime
  | generalizedTime
  | other
  deriving DecidableEq

/-- One value of an attribute. `beyond` is the memory behind the data, `names`
the long name that stands where a string has its data. -/
inductive Asn1Type where
  | string (type : StringType) (data beyond : Bytes)
  | octets (type : OctetType) (data beyond : Bytes)
  | object (names : Option Bytes)
  | null
  | boolean
  deriving DecidableEq

structure X509Attribute where
  nid : Nid
  values : List Asn1Type
  deriving DecidableEq

/-- A certificate request; a public key is its encoding. -/
structure X509Req where
  subject : List NameEntry
  attributes : List X509Attribute
  pubKey : Bytes
  signature : Bytes
  deriving DecidableEq

/-- A key pair: the encoded public key and a name for the private one. -/
structure EvpPkey where
  pubKey : Bytes
  secret : Nat
  deriving DecidableEq

structure Digest where
  nid : Nid
  deriving DecidableEq

/-- A trust store; only OpenSSL looks inside. -/
structure X509Store where
  id : Nat
  deriving DecidableEq

def x509VOk : Int := 0
def x509VErrUnableToGetCrl : Int := 3

structure Ssl where
  peerCert : Option X509
  peerChain : Option (List X509)
  verifyResult : Int
  srpUsername : Option Bytes
  version : Nat
  sessionReused : Bool
  finished : Bytes
  peerFinished : Bytes
  deriving DecidableEq

/-- The operations. A request is read behind the base64 filter; a signature is
made over everything but the old signature. -/
structure Crypto where
  bioRead : BioRead
  d2iX509Req : Bytes → Option X509Req
  i2dX509Req : X509Req → Bytes
  i2dPrivateKey : EvpPkey → Option Bytes
  getPubkey : X509Req → Option Bytes
  verify : X509Req → Bytes → Int
  setPubkey : EvpPkey → Option Bytes
  sign : X509Req → EvpPkey → Digest → Option Bytes
  storeCtxInit : X509Store → X509 → List X509 → Bool
  verifyCert : X509Store → X509 → List X509 → Int

/-- `X509_NAME_get_index_by_NID` and the data of the entry. -/
def nameField (name : List NameEntry) (nid : Nid) : Option Bytes :=
  (name.find? fun entry => entry.nid = nid).map NameEntry.data

/-- `X509_REQ_get_attr_by_NID` from the first attribute on. -/
def getAttrByNid (req : X509Req) (nid : Nid) : Option X509Attribute :=
  req.attributes.find? fun attr => attr.nid = nid

variable (C : Crypto)

/-- `est_server_parse_csr` with base64 decoding. -/
def estServerParseCsr (pkcs10 : Bytes) : Option X509Req := C.d2iX509Req pkcs10

/-- `X509_REQ_set_pubkey`. -/
def reqSetPubkey (csr : X509Req) (key : EvpPkey) : Option X509Req :=
  (C.setPubkey key).map fun pub => { csr with pubKey := pub }

def estX509ReqSign (csr : X509Req) (key : EvpPkey) (md : Digest) : Option X509Req :=
  (C.sign csr key md).map fun signature => { csr with signature := signature }

/-- Zero when the signature of the request verifies under its own public key. -/
def estServerCheckCsr (req : X509Req) : Nat :=
  match C.getPubkey req with
  | none => 1
  | some pub => if C.verify req pub ≤ 0 then 1 else 0

theorem estServerCheckCsr_eq_zero_iff {req : X509Req} :
    estServerCheckCsr C req = 0 ↔ ∃ pub, C.getPubkey req = some pub ∧ 0 < C.verify req pub := by
  unfold estServerCheckCsr
  split
  · rename_i hpub
    simp [hpub]
  · rename_i pub hpub
    rw [hpub]
    simp only [Option.some.injEq, exists_eq_left']
    split <;> omega

end LibEst.OpenSsl
