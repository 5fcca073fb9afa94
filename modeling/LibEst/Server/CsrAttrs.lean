import LibEst.Asn1
import LibEst.Server.Context

/-! The attributes that a server wants to see in a request: the list it sends to
a client that asks, and the check of a request against the list when enforcement
is on. The loops of the source become recursions on a bound for the number of
rounds. -/
namespace LibEst.Server.CsrAttrs

open LibEst.Basic LibEst.OpenSsl LibEst.Base64 LibEst.Lib.ByteString LibEst.Lib.Der
open LibEst.Asn1 LibEst.Server.Context

def minCsrattrs : Nat := 4
def maxCsrattrs : Nat := 1024
def minAsn1Csrattrs : Nat := 2
def maxCsrattrsWithpop : Nat := 1035

/-- A list with the challenge password only. -/
def estCsrattrsPop : Bytes := ascii "MAsGCSqGSIb3DQEJBw=="

def hexChpw : Bytes := [0x06, 0x09, 0x2A, 0x86, 0x48, 0x86, 0xF7, 0x0D, 0x01, 0x09, 0x07]

variable (C : Crypto) (A : Asn1Ops)

/-- The loop of `est_asn1_sanity_test`: the verdict, and whether the challenge
password was met. -/
def sanityLoop (der : Bytes) : Nat → Nat → Bool → EstError × Bool
  | 0, _, pop => (.unknown, pop)
  | fuel + 1, ptr, pop =>
      let outLen : Int := der.length - ptr
      if 0 < outLen then
        let h := A.getObject (der.drop ptr) outLen
        if h.error then (.badAsn1Hex, pop)
        else if h.tag = tagObject then
          match A.d2iObject (der.drop ptr) outLen with
          | some (object, used) =>
              sanityLoop der fuel (ptr + used)
                (pop || decide (A.obj2nid object = nidChallengePassword))
          | none => sanityLoop der fuel (ptr + h.headerLen) pop
        else if h.tag = tagSet ∨ h.tag = tagSequence then
          sanityLoop der fuel (ptr + h.headerLen) pop
        else sanityLoop der fuel (ptr + h.headerLen + h.len) pop
      else if outLen ≠ 0 then (.badAsn1Hex, pop)
      else if der.length > (if pop then maxCsrattrsWithpop else maxCsrattrs) then
        (.badAsn1HexTooLong, pop)
      else (.none, pop)

def estAsn1SanityTest (der : Bytes) : EstError × Bool :=
  if der.length < minAsn1Csrattrs then (.badAsn1HexTooShort, false)
  else sanityLoop A der (der.length + 1) 0 false

def estAsn1ParseAttributes (text : Bytes) (len : Int) : EstError × Bool :=
  if len < minCsrattrs then (.invalidParameters, false)
  else
    let der := estBase64Decode C.bioRead text (len.toNat * 2)
    if der = [] then (.badBase64, false) else estAsn1SanityTest A der

def estIsChallengePasswordPresent (text : Bytes) (len : Int) : EstError × Bool :=
  if len = 0 then (.none, false) else estAsn1ParseAttributes C A text len

/-- The header of a sequence of `n` bytes as the source writes it. -/
def popHeader (n : Nat) : Bytes :=
  if n ≥ 256 then [0x30, 0x82, UInt8.ofNat (n / 256), UInt8.ofNat (n % 256)]
  else if n ≥ 128 then [0x30, 0x81, UInt8.ofNat n]
  else [0x30, UInt8.ofNat n]

/-- The list with the challenge password behind its last value. -/
def estAddChallengePassword (text : Bytes) (len : Int) : EstError × Bytes :=
  let der := estBase64Decode C.bioRead text (len.toNat * 2)
  if der = [] then (.malloc, [])
  else
    let h := A.getObject der der.length
    if h.tag ≠ tagSequence then (.badAsn1Hex, [])
    else
      let content := der.drop h.headerLen ++ hexChpw
      let newDer := popHeader content.length ++ content
      match estBase64Encode newDer (newDer.length * 2) false with
      | some (c :: cs) => (.none, c :: cs)
      | _ => (.badBase64, [])

section Advertised

/-- What the client gets: nothing where the answer has no content. -/
structure AttrsResponse where
  rc : EstError
  sent : Option Bytes
  deriving DecidableEq

/-- An empty text is a response without content in HTTP. -/
def deliver (ctx : EstCtx) (text : Option Bytes) (len : Int) : AttrsResponse :=
  match ctx.transportMode with
  | .http => { rc := .none, sent := if 0 < len then text.map (·.take len.toNat) else none }
  | .coap => { rc := .none, sent := text.map (·.take len.toNat) }

/-- The list of the callback, with the challenge password where the server wants
it and the list does not have it. -/
def callbackAttrs (ctx : EstCtx) (answer : CsrAttrs) : Option AttrsResponse :=
  match answer.data with
  | none =>
      -- a text that is null is read as soon as its length says that there is one
      if minCsrattrs ≤ answer.len then none
      else if answer.len ≠ 0 then some { rc := .invalidParameters, sent := none }
      else if ctx.serverEnablePop then
        some (deliver ctx (some estCsrattrsPop) estCsrattrsPop.length)
      else some (deliver ctx none 0)
  | some text =>
      let (rv, _) := estAsn1ParseAttributes C A text answer.len
      if answer.len ≠ 0 ∧ rv ≠ .none then some { rc := rv, sent := none }
      else if ctx.serverEnablePop then
        let (rv, popPresent) := estIsChallengePasswordPresent C A text answer.len
        if rv ≠ .none then some { rc := rv, sent := none }
        else if popPresent then some (deliver ctx text answer.len)
        else if answer.len = 0 then
          some (deliver ctx (some estCsrattrsPop) estCsrattrsPop.length)
        else
          let (rv, textPop) := estAddChallengePassword C A text answer.len
          if rv ≠ .none then some { rc := rv, sent := none }
          else some (deliver ctx (some textPop) textPop.length)
      else some (deliver ctx text answer.len)

/-- The callback comes before the configured list. -/
def estHandleCsrAttrs (ctx : EstCtx) (peerCert : Option X509) (pathSeg : Option Bytes) :
    Option AttrsResponse :=
  match ctx.estGetCsrCb, ctx.serverCsrattrs with
  | some cb, _ => callbackAttrs C A ctx (cb pathSeg peerCert)
  | none, some text => some (deliver ctx (some text) text.length)
  | none, none =>
      if ctx.serverEnablePop then
        some (deliver ctx (some estCsrattrsPop) estCsrattrsPop.length)
      else some { rc := .httpNoContent, sent := none }

/-- `est_server_init_csrattrs` on a text: the list that the context keeps. -/
def estServerInitCsrattrs (ctx : EstCtx) (text : Bytes) : EstError × Option Bytes :=
  if ctx.estMode ≠ .server then (.badMode, ctx.serverCsrattrs)
  else if text.length < minCsrattrs then (.invalidParameters, none)
  else if ctx.serverEnablePop then
    let (rv, popPresent) := estIsChallengePasswordPresent C A text text.length
    if rv ≠ .none then (.invalidParameters, none)
    else if popPresent then (.none, some text)
    else
      let (rv, textPop) := estAddChallengePassword C A text text.length
      if rv ≠ .none then (.invalidParameters, none) else (.none, some textPop)
  else if (estAsn1ParseAttributes C A text text.length).1 ≠ .none then (.invalidParameters, none)
  else (.none, some text)

end Advertised

section Enforced

/-- The result of a walk, how far it came and the texts it has collected. -/
structure Walk where
  rc : Nat
  ptr : Nat
  list : List Bytes
  deriving DecidableEq

mutual

/-- The loop of `est_server_csr_asn1_parse` up to `tot`. A constructed value is
entered by a call of the whole function; two is the result at an end-of-contents
mark. -/
def csrAsn1Loop (der : Bytes) (fuel : Nat) (tot : Int) (op : Int) (ptr : Nat) (length : Int)
    (list : List Bytes) : Walk :=
  match fuel with
  | 0 => { rc := 0, ptr := ptr, list := list }
  | fuel + 1 =>
      if ptr < tot ∧ op < ptr then
        let start := ptr
        let h := A.getObject (der.drop ptr) length
        let ptr := ptr + h.headerLen
        if h.error then { rc := 0, ptr := ptr, list := list }
        else
          let length := length - h.headerLen
          if h.constructed then
            if h.len > length then { rc := 0, ptr := ptr, list := list }
            else if h.indefinite ∧ h.len = 0 then
              let r := csrAsn1Loop der fuel tot (ptr - 1) ptr (tot - ptr) list
              if r.rc = 0 then r
              else if r.rc = 2 ∨ r.ptr ≥ tot then { r with rc := 1 }
              else csrAsn1Loop der fuel tot start r.ptr length r.list
            else
              let r := csrAsn1Children der fuel (ptr + h.len) h.len ptr list
              if r.rc = 0 then r
              else csrAsn1Loop der fuel tot start r.ptr (length - h.len) r.list
          else if h.xclass ≠ 0 then
            csrAsn1Loop der fuel tot start (ptr + h.len) (length - h.len) list
          else if h.tag = tagObject then
            match A.d2iObject (der.drop start) (h.len + h.headerLen) with
            | none => { rc := 0, ptr := ptr, list := list }
            | some (object, _) =>
                csrAsn1Loop der fuel tot start (ptr + h.len) (length - h.len)
                  (list ++ [A.oidText object])
          else if h.tag = 0 then { rc := 2, ptr := ptr + h.len, list := list }
          else csrAsn1Loop der fuel tot start (ptr + h.len) (length - h.len) list
      else { rc := 1, ptr := ptr, list := list }

/-- The loop over the inside of a constructed value, which ends at `ep`. -/
def csrAsn1Children (der : Bytes) (fuel : Nat) (ep len : Nat) (ptr : Nat) (list : List Bytes) :
    Walk :=
  match fuel with
  | 0 => { rc := 0, ptr := ptr, list := list }
  | fuel + 1 =>
      if ptr < ep then
        let r := csrAsn1Loop der fuel (ptr + len) (ptr - 1) ptr len list
        if r.rc = 0 then r else csrAsn1Children der fuel ep len r.ptr r.list
      else { rc := 1, ptr := ptr, list := list }

end

def estServerCsrAsn1Parse (der : Bytes) : Walk :=
  csrAsn1Loop A der (2 * der.length + 2) der.length (-1) 0 der.length []

/-- The texts of the object identifiers of a request. -/
def estServerBuildCsrOidList (body : Bytes) : EstError × List Bytes :=
  let der := estBase64Decode C.bioRead body (body.length * 2)
  if der = [] then (.badBase64, [])
  else
    let walk := estServerCsrAsn1Parse A der
    if walk.rc = 0 then (.unknown, []) else (.none, walk.list)

/-- The loop of `est_server_all_csrattrs_present` over the list. -/
def enforceLoop (der : Bytes) (csrOids : List Bytes) : Nat → Nat → EstError
  | 0, _ => .unknown
  | fuel + 1, ptr =>
      let outLen : Int := der.length - ptr
      if 0 < outLen then
        let h := A.getObject (der.drop ptr) outLen
        if h.error then .badAsn1Hex
        else if h.tag = tagObject then
          match A.d2iObject (der.drop ptr) outLen with
          | none => .unknown
          | some (object, used) =>
              if A.obj2nid object = nidChallengePassword ∨ A.oidText object ∈ csrOids then
                enforceLoop der csrOids fuel (ptr + used)
              else .csrAttrMissing
        else if h.tag = tagSet ∨ h.tag = tagSequence then
          enforceLoop der csrOids fuel (ptr + h.headerLen)
        else enforceLoop der csrOids fuel (ptr + h.headerLen + h.len)
      else if outLen ≠ 0 then .badAsn1Hex
      else .none

/-- The list that a request is checked against; the path segment is not handed
to the callback here. -/
def requiredAttrs (ctx : EstCtx) (peerCert : Option X509) : CsrAttrs :=
  match ctx.estGetCsrCb, ctx.serverCsrattrs with
  | some cb, _ => cb none peerCert
  | none, some text => { data := some text, len := text.length }
  | none, none => { data := none, len := 0 }

def enforceAttrs (answer : CsrAttrs) (csrOids : List Bytes) : EstError :=
  match answer.data with
  | none => .cbFailed
  | some text =>
      if answer.len < minCsrattrs then .invalidParameters
      else
        let der := estBase64Decode C.bioRead text (answer.len.toNat * 2)
        if der = [] then .badBase64
        else if der.length > maxCsrattrs then .invalidParameters
        else if der.length < minAsn1Csrattrs then .invalidParameters
        else enforceLoop A der csrOids (der.length + 1) 0

def estServerAllCsrattrsPresent (ctx : EstCtx) (body : Bytes) (peerCert : Option X509) : EstError :=
  if ctx.serverCsrattrs.isNone ∧ ctx.estGetCsrCb.isNone then .none
  else
    let (rv, csrOids) := estServerBuildCsrOidList C A body
    if rv ≠ .none then rv else enforceAttrs C A (requiredAttrs ctx peerCert) csrOids

end Enforced

end LibEst.Server.CsrAttrs
