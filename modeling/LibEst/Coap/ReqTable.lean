import LibEst.Basic
import LibEst.Lib.SlotArray

/-! The table of CoAP requests in progress: one node for each peer, found by a
text made of the peer's port and address. Definitions follow `get_coap_req`,
`remove_coap_req`, `reinit_coap_req` and the functions that size and start the
table. An outer `none` is undefined behaviour of the source; a node pointer is
an index into the array, and a null pointer is the inner `none`. -/
namespace LibEst.Coap.ReqTable

open LibEst.Basic LibEst.Lib.ByteString LibEst.Lib.SlotArray

inductive EstCoapReq where
  | reset
  | crts
  | att
  | sen
  | sren
  | skg
  deriving DecidableEq, Repr

/-- The timers of a node only feed the performance log and are left out. -/
structure CoapReqNode where
  key : Bytes
  reqBuf : Bytes
  reqBufLen : Nat
  respBuf : Bytes
  respBufLen : Nat
  respBlkNum : Nat
  curReq : EstCoapReq
  deriving DecidableEq

/-- A node of zero bytes. -/
def blank : CoapReqNode where
  key := []
  reqBuf := []
  reqBufLen := 0
  respBuf := []
  respBufLen := 0
  respBlkNum := 0
  curReq := .reset

inductive IpAddr where
  | v4 (addr : BitVec 32)
  | v6 (addr : BitVec 128)
  deriving DecidableEq

/-- The remote address libcoap keeps for a session, ports in host order. -/
inductive SockAddr where
  | inet (port : UInt16) (addr : BitVec 32)
  | inet6 (port : UInt16) (addr : BitVec 128)
  | unspec
  deriving DecidableEq

def inet6AddrStrLen : Nat := 46

/-- The C library under the table: sorting, searching, and address texts. -/
structure Platform where
  sorter : Sorter CoapReqNode.key
  inetNtop : IpAddr → Option Bytes
  inetNtop_injective : ∀ {a b text}, inetNtop a = some text → inetNtop b = some text → a = b
  inetNtop_nonempty : ∀ {a text}, inetNtop a = some text → text ≠ []
  inetNtop_length : ∀ {a text}, inetNtop a = some text → text.length < inet6AddrStrLen

structure CoapCtx where
  estMode : EstMode
  transportMode : TransportMode
  requireHttpAuth : HttpAuthRequired
  coapServerPortNum : Nat
  /-- A libcoap context exists, so events and requests can arrive. -/
  coapCtx : Bool
  dtlsSessionMax : Nat
  coapReqArray : List CoapReqNode
  curMaxCoapReqArray : Nat
  coapReqCnt : Int

def estDtlsSessionMaxMin : Int := 2
def estDtlsSessionMaxMax : Int := 128
def estDtlsSessionMaxDef : Nat := 32

variable (P : Platform)

/-- The CoAP branch of `est_invoke_enroll_get_ip_port`: address text and port. -/
def estInvokeEnrollGetIpPort : SockAddr → Option (Bytes × Nat)
  | .inet port addr => (P.inetNtop (.v4 addr)).map fun text => (text, port.toNat)
  | .inet6 port addr => (P.inetNtop (.v6 addr)).map fun text => (text, port.toNat)
  | .unspec => some ([], 0)

/-- `"%d"` of the port with the address text right behind it. -/
def searchKey (addr : SockAddr) : Option Bytes :=
  (estInvokeEnrollGetIpPort P addr).map fun (text, port) => decimal port ++ text

theorem searchKey_ne_nil {addr : SockAddr} {key : Bytes} (h : searchKey P addr = some key) :
    key ≠ [] := by
  obtain ⟨⟨text, port⟩, -, rfl⟩ := Option.map_eq_some_iff.mp h
  intro hnil
  exact decimal_ne_nil port (List.append_eq_nil_iff.mp hnil).1

def maxPortnumStrLen : Nat := 5 * 2 + 1
def maxSearchStringLen : Nat := inet6AddrStrLen + maxPortnumStrLen + 1

/-- Every key has room for its terminator. -/
theorem searchKey_fits {addr : SockAddr} {key : Bytes} (h : searchKey P addr = some key) :
    key.length < maxSearchStringLen := by
  have hport : ∀ port : UInt16, (decimal port.toNat).length ≤ 5 := fun port =>
    numeral_length_le (by decide) (by decide) (Nat.lt_of_lt_of_le port.toNat_lt (by decide))
  obtain ⟨⟨text, port⟩, hget, rfl⟩ := Option.map_eq_some_iff.mp h
  rw [List.length_append]
  cases addr with
  | inet p addr =>
    obtain ⟨shown, htext, heq⟩ := Option.map_eq_some_iff.mp hget
    cases heq
    have hlen := P.inetNtop_length htext
    have hp := hport p
    simp only [maxSearchStringLen, maxPortnumStrLen, inet6AddrStrLen] at *
    omega
  | inet6 p addr =>
    obtain ⟨shown, htext, heq⟩ := Option.map_eq_some_iff.mp hget
    cases heq
    have hlen := P.inetNtop_length htext
    have hp := hport p
    simp only [maxSearchStringLen, maxPortnumStrLen, inet6AddrStrLen] at *
    omega
  | unspec =>
    cases hget
    decide

def reinitCoapReq (node : CoapReqNode) (newReq : EstCoapReq) : CoapReqNode :=
  { blank with key := node.key, curReq := newReq }

def getCoapReq (ctx : CoapCtx) (addr : SockAddr) (incomingReq : EstCoapReq) :
    Option (CoapCtx × Option Nat) :=
  if ctx.transportMode ≠ .coap then none
  else
    match searchKey P addr with
    | none => some (ctx, none)
    | some key =>
        -- the search walks `curMaxCoapReqArray` nodes whatever was allocated
        if ctx.coapReqArray.length ≠ ctx.curMaxCoapReqArray then none
        else
          match P.sorter.bsearch key ctx.coapReqArray with
          | some i =>
              let array := ctx.coapReqArray.modify i fun node =>
                if node.curReq ≠ incomingReq ∧ incomingReq ≠ .reset then
                  reinitCoapReq node incomingReq
                else node
              some ({ ctx with coapReqArray := array }, some i)
          | none =>
              match P.sorter.bsearch [] ctx.coapReqArray with
              | none => some (ctx, none)
              | some free =>
                  let array := P.sorter.qsort <| ctx.coapReqArray.modify free fun node =>
                    { node with key := key, curReq := incomingReq }
                  match P.sorter.bsearch key array with
                  | none => some ({ ctx with coapReqArray := array }, none)
                  | some i =>
                      some ({ ctx with
                        coapReqArray := array
                        coapReqCnt := ctx.coapReqCnt + 1 }, some i)

def removeCoapReq (ctx : CoapCtx) (pointer : Option Nat) : Option (CoapCtx × Bool) :=
  match pointer.bind fun i => ctx.coapReqArray[i]? with
  | none => some (ctx, false)
  | some node =>
      if ctx.coapReqCnt = 0 then some (ctx, false)
      else if ctx.coapReqArray.length ≠ ctx.curMaxCoapReqArray then none
      else
        match P.sorter.bsearch node.key ctx.coapReqArray with
        | none => some (ctx, false)
        | some i =>
            some ({ ctx with
              coapReqArray := P.sorter.qsort (ctx.coapReqArray.set i blank)
              coapReqCnt := ctx.coapReqCnt - 1 }, true)

/-- `calloc` may fail; the old array has been freed by then. -/
def estCoapInitReqArray (ctx : CoapCtx) (entryCount : Nat) (callocOk : Bool) :
    CoapCtx × EstError :=
  if callocOk then
    ({ ctx with
      coapReqArray := List.replicate entryCount blank
      curMaxCoapReqArray := entryCount }, .none)
  else ({ ctx with coapReqArray := [] }, .malloc)

def estServerSetDtlsSessionMax (ctx : CoapCtx) (sessionMax : Int) (callocOk : Bool) :
    CoapCtx × EstError :=
  if ctx.coapServerPortNum ≠ 0 then (ctx, .serverAlreadyOperational)
  else if sessionMax < estDtlsSessionMaxMin ∨ sessionMax > estDtlsSessionMaxMax then
    (ctx, .invalidParameters)
  else
    estCoapInitReqArray { ctx with dtlsSessionMax := sessionMax.toNat } sessionMax.toNat callocOk

/-- `contextOk` says whether libcoap delivers a context for the port. -/
def estServerCoapInitStart (ctx : CoapCtx) (port : Int) (contextOk : Bool) : CoapCtx × EstError :=
  if ctx.estMode ≠ .server ∧ ctx.estMode ≠ .proxy then (ctx, .badMode)
  else if port < 0 ∨ port > 65535 then (ctx, .invalidPortNum)
  else if contextOk then
    ({ ctx with
      coapServerPortNum := port.toNat
      coapCtx := true
      transportMode := .coap
      requireHttpAuth := .notRequired }, .none)
  else ({ ctx with coapServerPortNum := port.toNat, coapCtx := false }, .coapProcessingError)

/-- The table as `est_server_init` and `est_proxy_init` leave it. -/
def estServerInit (mode : EstMode) : CoapCtx where
  estMode := mode
  transportMode := .http
  requireHttpAuth := .required
  coapServerPortNum := 0
  coapCtx := false
  dtlsSessionMax := estDtlsSessionMaxDef
  coapReqArray := List.replicate estDtlsSessionMaxDef blank
  curMaxCoapReqArray := estDtlsSessionMaxDef
  coapReqCnt := 0

/-- `COAP_EVENT_DTLS_CONNECTED` in `est_coap_event_handler`. -/
def dtlsConnected (ctx : CoapCtx) (addr : SockAddr) : Option CoapCtx :=
  (getCoapReq P ctx addr .reset).map Prod.fst

/-- `COAP_EVENT_DTLS_CLOSED` in `est_coap_event_handler`. -/
def dtlsClosed (ctx : CoapCtx) (addr : SockAddr) : Option CoapCtx :=
  (getCoapReq P ctx addr .reset).bind fun (ctx, pointer) =>
    (removeCoapReq P ctx pointer).map Prod.fst

end LibEst.Coap.ReqTable
