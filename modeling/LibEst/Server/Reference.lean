import LibEst.Server.Context

/-! A small world in which the server runs: two Ed25519 keys, the requests for
`CN=dev` signed with them, a peer certificate, and OpenSSL's operations on these
values. -/
namespace LibEst.Server.Reference

open LibEst.Basic LibEst.OpenSsl LibEst.Base64 LibEst.Lib.ByteString
open LibEst.Server.AuthHeader LibEst.Server.Context

def hexDigit (c : Char) : Nat := if c.isDigit then c.toNat - 48 else c.toNat - 87

def hexBytes : List Char → Bytes
  | high :: low :: rest => UInt8.ofNat (hexDigit high * 16 + hexDigit low) :: hexBytes rest
  | _ => []

def hex (text : String) : Bytes := hexBytes text.toList

def nidCommonName : Nid := 13

def devName : List NameEntry := [{ nid := nidCommonName, data := ascii "dev" }]

def devCert : X509 where
  subject := devName
  extKeyUsage := none
  serial := 1

def clientKey : EvpPkey where
  pubKey := hex "302a300506032b6570032100990b3e71e1bbe238e6d7683b46d137435107d59b72a8ab4d310d8e7ca6a10e10"
  secret := 1

def serverKey : EvpPkey where
  pubKey := hex "302a300506032b6570032100e70345e1ada5b5b5608552dfb39fb18bd8c98430fe03a79d30fa5449ac12c9b6"
  secret := 2

def serverKeyDer : Bytes :=
  hex "302e020100300506032b6570042204208815e2356b86804d8803427bc7beb96ded00dd57e58f6f5f1208be42156ba10e"

/-- The body of a request of the client, as it is sent. -/
def clientBody : Bytes :=
  ascii ("MIGNMEECAQAwDjEMMAoGA1UEAwwDZGV2MCowBQYDK2VwAyEAmQs+ceG74jjm12g7\n" ++
    "RtE3Q1EH1ZtyqKtNMQ2OfKahDhCgADAFBgMrZXADQQDWIEwqohOO5Hc+EO82tQ1K\n" ++
    "x8wGIHshdgYsCwBrDXjIbiRwsHEYz3TbmiCkOLozeMK5UGBIlRW1QYeOVqU5WWIA\n")

/-- The same request for the key of the server. -/
def serverBody : Bytes :=
  ascii ("MIGNMEECAQAwDjEMMAoGA1UEAwwDZGV2MCowBQYDK2VwAyEA5wNF4a2ltbVghVLf\n" ++
    "s5+xi9jJhDD+A6edMPpUSawSybagADAFBgMrZXADQQBlyffiRIma2HYxUOiDBRXA\n" ++
    "AbToYOyRL6nkWHHT1tP6bwPJmiZYwGyLiyZM55P0euY0sfj7mu1KmmPVp4htaUcO\n")

def clientReq : X509Req where
  subject := devName
  attributes := []
  pubKey := clientKey.pubKey
  signature := hex ("d6204c2aa2138ee4773e10ef36b50d4ac7cc06207b2176062c0b006b0d78c86e" ++
    "2470b07118cf74db9a20a438ba3378c2b95060489515b541878e56a539596200")

def serverReq : X509Req where
  subject := devName
  attributes := []
  pubKey := serverKey.pubKey
  signature := hex ("65c9f7e244899ad8763150e8830515c001b4e860ec912fa9e45871d3d6d3fa6f" ++
    "03c99a2658c06c8b8b264ce793f47ae634b1f8fb9aed4a9a63d5a7886d69470e")

/-- OpenSSL on the values above; there are no manufacturers. -/
def hostCrypto : Crypto where
  bioRead := readBase64
  d2iX509Req body :=
    if body = clientBody then some clientReq
    else if body = serverBody then some serverReq
    else none
  i2dX509Req req := readBase64 false (if req = clientReq then clientBody else serverBody) 512
  i2dPrivateKey key := if key = serverKey then some serverKeyDer else none
  getPubkey req := some req.pubKey
  verify req pub := if (req = clientReq ∨ req = serverReq) ∧ pub = req.pubKey then 1 else 0
  setPubkey key := some key.pubKey
  sign req key _ :=
    if key = serverKey ∧ req.pubKey = serverKey.pubKey then some serverReq.signature else none
  storeCtxInit _ _ _ := true
  verifyCert _ _ _ := 0

/-- A session in which the peer showed a certificate that TLS accepted. -/
def devSession : Ssl where
  peerCert := some devCert
  peerChain := some [devCert]
  verifyResult := x509VOk
  srpUsername := none
  version := 0x0303
  sessionReused := false
  finished := ascii "server done."
  peerFinished := ascii "client done."

/-- An HTTP server that requires HTTP authentication and knows one user. -/
def userIs (name : String) (call : AuthCall) : Bool := call.ah.user = some (ascii name)

def issue (_ : CaRequest) : CaAnswer where
  rv := .none
  cert := ascii "certificate"

def authCtx : EstCtx where
  transportMode := .http
  estMode := .server
  requireHttpAuth := .required
  authMode := .basic
  estHttpAuthCb := some (userIs "alice")
  enhancedCertAuthEnabled := false
  enhancedCertAuthCsrCheck := false
  enchdCertMfgsInfoList := none
  enhcdCertLocalPkiNid := nidCommonName
  enhcdCertAuthPwd := ascii "cisco"
  serverEnablePop := false
  enforceCsrattrs := false
  serverCsrattrs := none
  estGetCsrCb := none
  estEnrollPkcs10Cb := some issue
  estReenrollPkcs10Cb := some issue
  estServerKeygenPkcs10Cb := some fun request key => (issue request, key)
  keygenCb := some (.none, some serverKey)
  signingDigest := { nid := 672 }

end LibEst.Server.Reference
