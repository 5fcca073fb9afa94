import LibEst.Client.Api
import LibEst.Client.Reference
import LibEst.Server.Reference

/-! The libraries behind a client, and answers that a server gives it. -/
namespace LibEst.Client.ReferenceEnv

open LibEst.Basic LibEst.OpenSsl LibEst.Asn1 LibEst.Lib.ByteString LibEst.Lib.Der
open LibEst.Server.Reference
open LibEst.Client.Context LibEst.Client.Request LibEst.Client.Reference LibEst.Client.Api

/-- A self-signed authority with an Ed25519 key, in the base64 text that a server sends. -/
def caCerts : Bytes :=
  [77, 73, 73, 66, 88, 119, 89, 74, 75, 111, 90, 73, 104, 118, 99, 78, 65, 81, 99, 67, 111, 73,
   73, 66, 85, 68, 67, 67, 65, 85, 119, 67, 65, 81, 69, 120, 65, 68, 65, 76, 66, 103, 107, 113,
   104, 107, 105, 71, 57, 119, 48, 66, 66, 119, 71, 103, 103, 103, 69, 48, 77, 73, 73, 66, 10,
   77, 68, 67, 66, 52, 54, 65, 68, 65, 103, 69, 67, 65, 104, 82, 82, 118, 100, 68, 66, 55, 86,
   75, 51, 73, 107, 89, 106, 65, 105, 101, 52, 111, 43, 89, 116, 80, 107, 119, 76, 106, 84, 65,
   70, 66, 103, 77, 114, 90, 88, 65, 119, 68, 84, 69, 76, 77, 65, 107, 71, 65, 49, 85, 69, 10,
   65, 119, 119, 67, 89, 50, 69, 119, 73, 66, 99, 78, 77, 106, 89, 120, 77, 84, 69, 52, 77, 68,
   99, 121, 77, 84, 81, 119, 87, 104, 103, 80, 77, 106, 69, 121, 78, 106, 69, 119, 77, 106, 85,
   119, 78, 122, 73, 120, 78, 68, 66, 97, 77, 65, 48, 120, 67, 122, 65, 74, 66, 103, 78, 86, 10,
   66, 65, 77, 77, 65, 109, 78, 104, 77, 67, 111, 119, 66, 81, 89, 68, 75, 50, 86, 119, 65, 121,
   69, 65, 71, 98, 89, 105, 109, 68, 110, 49, 70, 56, 52, 114, 65, 101, 115, 70, 54, 104, 67,
   83, 67, 107, 79, 43, 67, 75, 117, 106, 118, 89, 52, 112, 120, 104, 102, 107, 88, 99, 103, 70,
   10, 121, 97, 117, 106, 85, 122, 66, 82, 77, 66, 48, 71, 65, 49, 85, 100, 68, 103, 81, 87, 66,
   66, 83, 54, 89, 108, 113, 72, 112, 106, 115, 72, 78, 57, 108, 80, 106, 118, 43, 110, 119, 86,
   113, 50, 47, 87, 82, 83, 105, 106, 65, 102, 66, 103, 78, 86, 72, 83, 77, 69, 71, 68, 65, 87,
   10, 103, 66, 83, 54, 89, 108, 113, 72, 112, 106, 115, 72, 78, 57, 108, 80, 106, 118, 43, 110,
   119, 86, 113, 50, 47, 87, 82, 83, 105, 106, 65, 80, 66, 103, 78, 86, 72, 82, 77, 66, 65, 102,
   56, 69, 66, 84, 65, 68, 65, 81, 72, 47, 77, 65, 85, 71, 65, 121, 116, 108, 99, 65, 78, 66,
   10, 65, 76, 72, 80, 120, 105, 50, 119, 57, 69, 75, 108, 74, 78, 116, 112, 82, 57, 54, 68,
   102, 120, 107, 80, 86, 79, 113, 115, 105, 86, 68, 121, 114, 90, 82, 87, 117, 122, 105, 72,
   72, 113, 72, 72, 122, 122, 49, 103, 52, 54, 82, 107, 114, 65, 87, 83, 57, 66, 115, 67, 100,
   85, 52, 120, 10, 109, 114, 88, 81, 89, 97, 120, 90, 70, 100, 98, 113, 120, 116, 122, 73, 73,
   114, 55, 107, 117, 65, 89, 120, 65, 65, 61, 61, 10]

/-- A key on the curve P-256. -/
def deviceKey : EvpPkey where
  pubKey :=
    [48, 89, 48, 19, 6, 7, 42, 134, 72, 206, 61, 2, 1, 6, 8, 42, 134, 72, 206, 61, 3, 1, 7, 3, 66,
     0, 4, 122, 113, 151, 236, 213, 244, 104, 5, 224, 196, 220, 36, 214, 138, 241, 79, 145, 178,
     35, 77, 133, 249, 144, 177, 26, 206, 138, 200, 66, 9, 66, 192, 154, 75, 168, 226, 238, 131,
     226, 96, 154, 150, 190, 218, 171, 246, 173, 137, 68, 83, 102, 239, 128, 1, 215, 216, 83, 171,
     182, 46, 53, 127, 231, 111]
  secret := 3

/-- ECDSA with SHA-256 over the request for `CN=dev` without attributes. -/
def plainSignature : Bytes :=
  [48, 68, 2, 32, 64, 169, 207, 154, 41, 119, 209, 195, 38, 117, 114, 234, 102, 26, 112, 231,
   11, 184, 106, 144, 83, 161, 175, 225, 27, 89, 48, 243, 90, 73, 236, 63, 2, 32, 55, 98, 94,
   87, 236, 125, 53, 89, 237, 147, 122, 246, 172, 237, 150, 216, 3, 188, 1, 189, 88, 253, 164,
   10, 119, 121, 211, 77, 234, 166, 214, 39]

/-- The same with the challenge password of `devSession`. -/
def popSignature : Bytes :=
  [48, 68, 2, 32, 21, 186, 230, 107, 206, 179, 88, 53, 243, 155, 54, 38, 197, 182, 200, 1, 154,
   73, 104, 19, 151, 41, 49, 79, 161, 174, 157, 240, 70, 228, 87, 180, 2, 32, 69, 237, 36, 171,
   92, 18, 89, 239, 211, 247, 30, 14, 28, 204, 151, 211, 168, 104, 187, 34, 116, 60, 160, 218,
   113, 60, 213, 43, 117, 116, 20, 198]

def tlv (id : Identifier) (constructed : Bool) (content : Bytes) : Bytes :=
  header id constructed content.length ++ content

def sequence (content : Bytes) : Bytes := tlv (universal tagSequence) true content

def utf8String (text : Bytes) : Bytes := tlv (universal 12) false text

def derAttribute (attr : X509Attribute) : Bytes :=
  sequence (tlv (universal tagObject) false oidChallengePassword ++
    tlv (universal tagSet) true (attr.values.flatMap fun
      | .string .utf8 data _ => utf8String data
      | _ => []))

/-- The DER of a request for `CN=dev` by this key. -/
def deviceEncoding (req : X509Req) : Bytes :=
  let name := sequence (tlv (universal tagSet) true (sequence
    (tlv (universal tagObject) false [85, 4, 3] ++ utf8String (ascii "dev"))))
  let info := sequence ([2, 1, 0] ++ name ++ req.pubKey ++
    tlv ⟨2, 0⟩ true (req.attributes.flatMap derAttribute))
  let ecdsaWithSha256 := sequence (tlv (universal tagObject) false [42, 134, 72, 206, 61, 4, 3, 2])
  sequence (info ++ ecdsaWithSha256 ++ tlv (universal tagBitString) false (0 :: req.signature))

/-- OpenSSL on requests of this key too. -/
def deviceCrypto : Crypto :=
  { hostCrypto with
    i2dX509Req := fun req =>
      if req.pubKey = deviceKey.pubKey then deviceEncoding req else hostCrypto.i2dX509Req req
    sign := fun req key md =>
      if key = deviceKey ∧ md = sha256 then
        some (if req.attributes = [] then plainSignature else popSignature)
      else none }

/-- OpenSSL on the values of this world: the authority verifies, and no other text
is a structure of certificates. -/
def clientEnv : ClientEnv where
  crypto := deviceCrypto
  asn1 := hostAsn1
  md5 := hostMd5
  userAgent := ascii "libest"
  fipsMode := false
  d2iPkcs7 _ := none
  d2iPrivateKey _ := none
  keyMatches _ _ := false
  verifyCacertResp certs :=
    if certs = caCerts then .ok certs else .error .cacertVerification
  convertP7b64ToPem certs := if certs = caCerts then some (ascii "ca.pem") else none
  loadTrustedCerts pem := if pem = ascii "ca.pem" then .none else .noCertsFound
  setCertAndKey _ _ := true
  hasSignature _ := true
  checkPrivateKey _ key := key = clientKey
  x509ToX509Req _ := some clientReq
  extCount _ := 0
  addExtensions _ req := some req
  parsePathSeg _ := .none

/-- A server that takes the connection and answers with a text. -/
def answering (text : Bytes) : Exchange where
  connect := .ok devSession
  wrote := true
  reads := [some text]
  random := some [0, 1, 2, 3, 4, 5, 6, 7]
  stack := []

def unreachable : Exchange where
  connect := .error .connect
  wrote := false
  reads := []
  random := none
  stack := []

/-- A first answer, and a second one. -/
def serving (first second : Exchange) : Network
  | 0 => first
  | 1 => second
  | _ => unreachable

def basicChallenge : Exchange :=
  answering (ascii "HTTP/1.1 401 Unauthorized\r\nWWW-Authenticate: Basic realm=\"est\"\r\n\r\n")

def cacertsAnswer : Exchange :=
  answering (ascii ("HTTP/1.1 200 OK\r\nContent-Type: application/pkcs7-mime\r\n" ++
    "Content-Length: 484\r\n\r\n") ++ caCerts)

def noContentAnswer : Exchange := answering (ascii "HTTP/1.1 204 No Content\r\n\r\n")

end LibEst.Client.ReferenceEnv
