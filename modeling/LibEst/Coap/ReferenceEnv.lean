import LibEst.Coap.Reference
import LibEst.Coap.Handlers

/-! The reference platform with the part of libcoap that the handlers use:
cutting a response into blocks. -/
namespace LibEst.Coap.ReferenceEnv

open LibEst.Basic LibEst.Base64 LibEst.Lib.ByteString LibEst.Coap.Handlers

/-- Blocks of the size asked for, or of 1024 bytes where a response without a
Block2 option would not fit. -/
def cutBlock (block : Option Block) (data : Bytes) : Blocked :=
  match block with
  | some b =>
      if b.num ≠ 0 ∧ data.length ≤ b.offset then { code := some 400, payload := [], more := false }
      else
        let size := 2 ^ (b.szx.toNat + 4)
        { code := none
          payload := (data.drop b.offset).take size
          more := decide (b.offset + size < data.length) }
  | none => { code := none, payload := data.take 1024, more := decide (1024 < data.length) }

theorem cutBlock_slice (block : Option Block) (data : Bytes) :
    (cutBlock block data).payload <:+: data := by
  unfold cutBlock
  split
  · split
    · exact List.nil_infix
    · exact (List.take_prefix _ _).isInfix.trans (List.drop_suffix _ _).isInfix
  · exact (List.take_prefix _ _).isInfix

def hostEnv : Env where
  toPlatform := Reference.hostPlatform
  bioRead := readBase64
  addDataBlockedResponse := cutBlock
  blocked_slice := cutBlock_slice

/-- A block of 16 bytes of an enrollment over `/sen`. -/
def blockPdu (num : BitVec 20) (more : Bool) (payload : Bytes) : Pdu where
  contentFormat := [coapMediaTypePkcs10]
  accept := [coapMediaTypePkcs7Certs]
  payload := payload
  block1 := some { num := num, m := more, szx := 0 }
  block2 := none

/-- The CA asks the client to come back later. -/
def senRetry (pdu : Pdu) : Request where
  resource := .sen
  pdu := pdu
  tls := true
  peerCert := true
  answer := { rc := .caEnrollRetry, content := none, key := [], caCalled := true }

end LibEst.Coap.ReferenceEnv
