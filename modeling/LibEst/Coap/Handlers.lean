import LibEst.Base64
import LibEst.Coap.TableMap

/-! The request handlers of `est_server_coap.c`, from the message libcoap
delivers to the one it is given to send. The node of the peer carries an upload
from message to message and then the response that is sent block by block.
What the EST core answers is an input of each message; what libcoap makes of a
response is a function of the platform. -/
namespace LibEst.Coap.Handlers

open LibEst.Basic LibEst.Base64 LibEst.Lib.ByteString LibEst.Coap.ReqTable

def coapReqNodeBufLenMax : Nat := 1024 * 16

/-- A Block1 or Block2 option, in the field widths of the protocol. -/
structure Block where
  num : BitVec 20
  m : Bool
  szx : BitVec 3
  deriving DecidableEq

/-- `num << (szx + 4)`, which fits the 32 bits it is computed in. -/
def Block.offset (b : Block) : Nat := b.num.toNat * 2 ^ (b.szx.toNat + 4)

theorem Block.offset_lt (b : Block) : b.offset < 2 ^ 32 := by
  have hnum : b.num.toNat < 2 ^ 20 := b.num.isLt
  have hszx : b.szx.toNat + 4 ≤ 11 := by
    have := b.szx.isLt
    omega
  calc b.offset ≤ b.num.toNat * 2 ^ 11 :=
        Nat.mul_le_mul_left _ (Nat.pow_le_pow_right (by decide) hszx)
    _ < 2 ^ 20 * 2 ^ 11 := Nat.mul_lt_mul_of_pos_right hnum (by decide)
    _ ≤ 2 ^ 32 := by decide

theorem Block.offset_eq_zero_iff (b : Block) : b.offset = 0 ↔ b.num = 0 := by
  unfold Block.offset
  rw [Nat.mul_eq_zero]
  constructor
  · rintro (hnum | hpow)
    · exact BitVec.eq_of_toNat_eq hnum
    · exact absurd hpow (Nat.pow_pos (by decide)).ne'
  · intro hnum
    rw [hnum]
    exact Or.inl rfl

structure Pdu where
  /-- Values of the Content-Format options, in the order of the message. -/
  contentFormat : List Nat
  accept : List Nat
  payload : Bytes
  block1 : Option Block
  block2 : Option Block
  deriving DecidableEq

inductive Resource where
  | sen
  | sren
  | skg
  | crts
  | att
  deriving DecidableEq

/-- What the EST core returns to a handler: the status, the text it hands back
(certificate, CA certificates or attributes, null if absent), the private key of
a key generation, and whether it called the CA. -/
structure Answer where
  rc : EstError
  content : Option Bytes
  key : Bytes
  caCalled : Bool

structure Request where
  resource : Resource
  pdu : Pdu
  /-- The session has a TLS object, and the peer showed a certificate in it. -/
  tls : Bool
  peerCert : Bool
  answer : Answer

inductive EndpointNotice where
  | reqStart
  | reqEnd
  deriving DecidableEq

structure Response where
  code : Nat
  block1 : Option Block
  payload : Bytes
  /-- The more bit of the Block2 option of the response. -/
  more : Bool
  deriving DecidableEq

/-- A certificate request passed on to the enroll or key generation code. -/
structure EnrollCall where
  enrollReq : EnrollReqType
  csr : Bytes
  b64 : Bytes
  deriving DecidableEq

structure Outcome where
  response : Response
  call : Option EnrollCall
  notices : List EndpointNotice
  deriving DecidableEq

/-- The response libcoap builds from the block that was asked for and the whole
data: a code of its own on failure, one slice of the data, and the more bit. -/
structure Blocked where
  code : Option Nat
  payload : Bytes
  more : Bool

structure Env extends Platform where
  bioRead : BioRead
  addDataBlockedResponse : Option Block → Bytes → Blocked
  blocked_slice : ∀ block data, (addDataBlockedResponse block data).payload <:+: data

inductive OptionType where
  | contentType
  | accept
  deriving DecidableEq

def coapContentTypeMax : Nat := 65535
def coapMediaTypeMulti : Nat := 62
def coapMediaTypePkcs7Certs : Nat := 281
def coapMediaTypeCsrAttrs : Nat := 285
def coapMediaTypePkcs10 : Nat := 286

def estCoapCheckOption (pdu : Pdu) (optionType : OptionType) (mediaType : Nat) : EstError :=
  match (match optionType with | .contentType => pdu.contentFormat | .accept => pdu.accept) with
  | [] => if optionType = .accept then .none else .badContentType
  | value :: rest =>
      if value ≠ mediaType then
        if value > coapContentTypeMax then .badContentType
        else
          match optionType with
          | .contentType => .httpBadReq
          | .accept => .httpUnsupported
      else if rest ≠ [] then .badContentType
      else .none

def contentFormatCode : EstError → Option Nat
  | .none => none
  | .badContentType => some 402
  | .httpBadReq => some 400
  | _ => some 500

def acceptCode : EstError → Option Nat
  | .none => none
  | .badContentType => some 402
  | .httpUnsupported => some 406
  | _ => some 500

/-- The switch over the result of an enrollment or a key generation. -/
def enrollCode : EstError → Option Nat
  | .none => none
  | .badPkcs10 | .csrAttrMissing | .httpBadReq | .noSslCtx => some 400
  | .httpNoContent => some 204
  | .httpNotFound => some 404
  | .authFailTlsuid | .authFail => some 401
  | .httpUnsupported => some 502
  | .caEnrollRetry | .httpLocked => some 503
  | .ipConnect => some 504
  | _ => some 500

/-- The switch over the result of fetching CA certificates or attributes. -/
def fetchCode : EstError → Option Nat
  | .none => none
  | .httpBadReq => some 400
  | .httpNoContent => some 205
  | .httpNotFound => some 404
  | .authFail => some 401
  | .httpUnsupported => some 502
  | .caEnrollRetry | .httpLocked => some 503
  | .ipConnect => some 504
  | _ => some 500

/-- `goto error_exit` with a response code. -/
def errorExit (code : Nat) (call : Option EnrollCall) (notices : List EndpointNotice) : Outcome where
  response := { code := code, block1 := none, payload := [], more := false }
  call := call
  notices := notices ++ [.reqEnd]

section Cbor

def cborLength (n count : Nat) : Bytes :=
  (List.range count).reverse.map fun i => UInt8.ofNat (n / 256 ^ i % 256)

/-- `makeCborBytestring` and `writeCborBytestring`: the initial byte, the length
and the data. -/
def cborBytestring (data : Bytes) : Bytes :=
  let n := data.length
  if n ≤ 23 then UInt8.ofNat (0x40 + n) :: data
  else if n ≤ 255 then 0x58 :: (cborLength n 1 ++ data)
  else if n ≤ 65535 then 0x59 :: (cborLength n 2 ++ data)
  else if n ≤ 4294967295 then 0x5a :: (cborLength n 4 ++ data)
  else 0x5b :: (cborLength n 8 ++ data)

/-- An array of four: key format, key, certificate format, certificate. -/
def cborKeyAndCert (key cert : Bytes) : Bytes :=
  [0x84, 0x19, 0x01, 0x1c] ++ cborBytestring key ++ [0x19, 0x01, 0x19] ++ cborBytestring cert

end Cbor

variable (E : Env)

/-- The bytes to send for a text of the core, `none` for the code 500. -/
def decodeText (text : Bytes) (room : Nat) : Option Bytes :=
  let decoded := estBase64Decode E.bioRead text (min text.length room)
  if decoded = [] then none else some decoded

def enrollResponse (answer : Answer) : Option Bytes :=
  answer.content.bind fun cert => decodeText E cert coapReqNodeBufLenMax

def keygenResponse (answer : Answer) : Option Bytes := do
  let cert ← answer.content
  let keyDer ← decodeText E answer.key (coapReqNodeBufLenMax - 5)
  let used := 4 + (cborBytestring keyDer).length + 4
  let certDer ← decodeText E cert (coapReqNodeBufLenMax - used)
  let cbor := cborKeyAndCert keyDer certDer
  if cbor.length > coapReqNodeBufLenMax then none else some cbor

def storeResponse (node : CoapReqNode) (data : Bytes) : CoapReqNode :=
  { node with respBuf := writeAt node.respBuf 0 data, respBufLen := data.length }

/-- The response out of `resp_buf`. A code that libcoap sets on failure stands,
unless the handler assigns its own code afterwards. -/
def sendStored (code : Nat) (codeLast : Bool) (node : CoapReqNode) (pdu : Pdu)
    (call : Option EnrollCall) (notices : List EndpointNotice) : Outcome :=
  let blocked := E.addDataBlockedResponse pdu.block2 (readFirst node.respBuf node.respBufLen)
  { response := {
      code := if codeLast then code else blocked.code.getD code
      block1 := none
      payload := blocked.payload
      more := blocked.more }
    call := call
    notices := if blocked.more then notices else notices ++ [.reqEnd] }

/-- How far a message brings an upload: refused with a code, to be continued
after an acknowledged block, or complete. `none` is a write past the buffer. -/
inductive Received where
  | refused (code : Nat)
  | waiting (node : CoapReqNode) (block : Block)
  | complete (node : CoapReqNode)

def clearReqBuf (node : CoapReqNode) : CoapReqNode :=
  { node with
    reqBuf := if firstByte node.reqBuf ≠ 0 then [] else node.reqBuf
    reqBufLen := 0 }

/-- `memcpy_s(&req_buf[offset], size, data, size)`. -/
def copyIn (node : CoapReqNode) (offset : Nat) (data : Bytes) : Option CoapReqNode :=
  if offset + data.length ≤ coapReqNodeBufLenMax then
    some { node with
      reqBuf := writeAt node.reqBuf offset data
      reqBufLen := offset + data.length }
  else none

def justRespond (node : CoapReqNode) (block : Block) : Received :=
  if block.m then .waiting node block else .complete node

def receiveBlock (node : CoapReqNode) (block : Block) (payload : Bytes) : Option Received :=
  if payload = [] then some (justRespond node block)
  else if block.offset = 0 then
    (copyIn (clearReqBuf node) 0 payload).map (justRespond · block)
  else if block.offset > node.reqBufLen then some (.refused 408)
  else if block.offset < node.reqBufLen then some (justRespond node block)
  else (copyIn node block.offset payload).map (justRespond · block)

def receive (node : CoapReqNode) (pdu : Pdu) : Option Received :=
  match pdu.block1 with
  | some block => receiveBlock node block pdu.payload
  | none =>
      if pdu.payload ≠ [] then (copyIn node 0 pdu.payload).map .complete
      else if node.reqBufLen ≠ 0 then some (.refused 400)
      else some (.complete (clearReqBuf node))

/-- What distinguishes the three upload resources. -/
structure UploadKind where
  reqType : EstCoapReq
  enrollReq : EnrollReqType
  acceptType : Nat
  response : Answer → Option Bytes

/-- The end of an upload: the request is passed on and the answer stored. -/
def finishUpload (mode : EstMode) (kind : UploadKind) (request : Request) (node : CoapReqNode)
    (notices : List EndpointNotice) : Option (CoapReqNode × Outcome) :=
  if node.reqBufLen = 0 then some (node, errorExit 400 none notices)
  else
    let csr := readFirst node.reqBuf node.reqBufLen
    match estBase64Encode csr (csr.length * 2) true with
    | none => none
    | some b64 =>
        if b64 = [] then some (node, errorExit 500 none notices)
        else if mode ≠ .server ∧ mode ≠ .proxy then some (node, errorExit 500 none notices)
        else
          let call : EnrollCall := { enrollReq := kind.enrollReq, csr := csr, b64 := b64 }
          match enrollCode request.answer.rc with
          | some code => some (node, errorExit code (some call) notices)
          | none =>
              match kind.response request.answer with
              | none => some (node, errorExit 500 (some call) notices)
              | some data =>
                  let node := storeResponse node data
                  some (node, sendStored E 204 false node request.pdu (some call) notices)

/-- A new request in its entirety, or the first block of one. -/
def startsUpload (pdu : Pdu) : Bool :=
  pdu.payload ≠ [] ∧ pdu.block1.all fun block => block.num = 0

def restartUpload (kind : UploadKind) (pdu : Pdu) (node : CoapReqNode) : CoapReqNode :=
  if firstByte node.reqBuf ≠ 0 ∧ startsUpload pdu then reinitCoapReq node kind.reqType else node

/-- The part of the `/sen`, `/sren` and `/skg` handlers that works on the node. -/
def uploadBody (mode : EstMode) (kind : UploadKind) (request : Request) (node : CoapReqNode) :
    Option (CoapReqNode × Outcome) :=
  let node := restartUpload kind request.pdu node
  if firstByte node.respBuf ≠ 0 then
    some (node, sendStored E 204 false node request.pdu none [])
  else
    let notices := if firstByte node.reqBuf = 0 then [EndpointNotice.reqStart] else []
    match acceptCode (estCoapCheckOption request.pdu .accept kind.acceptType) with
    | some code => some (node, errorExit code none notices)
    | none =>
        match receive node request.pdu with
        | none => none
        | some (.refused code) => some (node, errorExit code none notices)
        | some (.waiting node block) =>
            some (node, {
              response := { code := 231, block1 := some block, payload := [], more := false }
              call := none
              notices := notices })
        | some (.complete node) => finishUpload E mode kind request node notices

/-- What distinguishes the two download resources. -/
structure DownloadKind where
  reqType : EstCoapReq
  acceptType : Nat
  noTlsCode : Nat
  /-- The start notice goes out before the Accept option is looked at. -/
  startFirst : Bool
  noContentCode : Nat
  codeLast : Bool

def downloadBody (mode : EstMode) (kind : DownloadKind) (request : Request) (node : CoapReqNode) :
    Option (CoapReqNode × Outcome) :=
  if firstByte node.respBuf ≠ 0 then
    some (node, sendStored E 205 kind.codeLast node request.pdu none [])
  else
    match acceptCode (estCoapCheckOption request.pdu .accept kind.acceptType) with
    | some code =>
        some (node, errorExit code none (if kind.startFirst then [.reqStart] else []))
    | none =>
        if mode ≠ .server ∧ mode ≠ .proxy then some (node, errorExit 500 none [.reqStart])
        else
          match fetchCode request.answer.rc with
          | some code => some (node, errorExit code none [.reqStart])
          | none =>
              match request.answer.content with
              | none => some (node, errorExit kind.noContentCode none [.reqStart])
              | some text =>
                  match decodeText E text coapReqNodeBufLenMax with
                  | none => some (node, errorExit 500 none [.reqStart])
                  | some data =>
                      let node := storeResponse node data
                      some (node, sendStored E 205 kind.codeLast node request.pdu none [.reqStart])

/-- Looking up the node comes between the checks of a handler and its body. -/
structure Handler where
  reqType : EstCoapReq
  /-- The exits before the node is looked up. -/
  admission : Request → Option Outcome
  body : EstMode → Request → CoapReqNode → Option (CoapReqNode × Outcome)

/-- A wrong Content-Format is refused before the context is known, so that no
end notice goes out for it. -/
def admitUpload (request : Request) : Option Outcome :=
  match contentFormatCode (estCoapCheckOption request.pdu .contentType coapMediaTypePkcs10) with
  | some code => some { errorExit code none [] with notices := [] }
  | none =>
      if !request.tls then some (errorExit 401 none [])
      else if !request.peerCert then some (errorExit 401 none [])
      else none

def admitDownload (kind : DownloadKind) (request : Request) : Option Outcome :=
  if !request.tls then some (errorExit kind.noTlsCode none []) else none

def uploadHandler (kind : UploadKind) : Handler where
  reqType := kind.reqType
  admission := admitUpload
  body mode := uploadBody E mode kind

def downloadHandler (kind : DownloadKind) : Handler where
  reqType := kind.reqType
  admission := admitDownload kind
  body mode := downloadBody E mode kind

def senKind (resource : Resource) : UploadKind where
  reqType := if resource = .sren then .sren else .sen
  enrollReq := if resource = .sren then .reenroll else .simpleEnroll
  acceptType := coapMediaTypePkcs7Certs
  response := enrollResponse E

def skgKind : UploadKind where
  reqType := .skg
  enrollReq := .serverKeygen
  acceptType := coapMediaTypeMulti
  response := keygenResponse E

def crtsKind : DownloadKind where
  reqType := .crts
  acceptType := coapMediaTypePkcs7Certs
  noTlsCode := 401
  startFirst := false
  noContentCode := 404
  codeLast := false

def attKind : DownloadKind where
  reqType := .att
  acceptType := coapMediaTypeCsrAttrs
  noTlsCode := 500
  startFirst := true
  noContentCode := 205
  codeLast := true

/-- Registered for `/sen` and for `/sren`. -/
def estCoapSenHandler (resource : Resource) : Handler := uploadHandler E (senKind E resource)

def estCoapSkgHandler : Handler := uploadHandler E (skgKind E)

def estCoapCrtsHandler : Handler := downloadHandler E crtsKind

def estCoapAttHandler : Handler := downloadHandler E attKind

def handlerOf : Resource → Handler
  | .sen => estCoapSenHandler E .sen
  | .sren => estCoapSenHandler E .sren
  | .skg => estCoapSkgHandler E
  | .crts => estCoapCrtsHandler E
  | .att => estCoapAttHandler E

end LibEst.Coap.Handlers
