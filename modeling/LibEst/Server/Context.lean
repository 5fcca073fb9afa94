import LibEst.OpenSsl
import LibEst.Server.AuthHeader

/-! The context of a server: its configuration and the callbacks that the
application has registered. A callback is the function it computes at the time
of a request; what it is handed is a structure of its own, so that a call can be
recorded. -/
namespace LibEst.Server.Context

open LibEst.Basic LibEst.OpenSsl LibEst.Lib.ByteString LibEst.Server.AuthHeader

def numSupportedMfg : Nat := 4

/-- A slot of the manufacturer list. It is in use when it has both a trust store
and a store context. -/
structure MfgInfo where
  nid : Nid
  truststore : Option X509Store
  storeCtx : Bool
  deriving DecidableEq

/-- What `est_http_auth_cb` is called with. -/
structure AuthCall where
  ah : AuthHdr
  peer : Option X509
  pathSeg : Option Bytes
  deriving DecidableEq

/-- What a CA callback is called with; the user is null outside of HTTP. -/
structure CaRequest where
  pkcs10 : Bytes
  userId : Option Bytes
  peerCert : Option X509
  pathSeg : Option Bytes
  deriving DecidableEq

structure CaAnswer where
  rv : EstError
  cert : Bytes
  deriving DecidableEq

/-- The text and the length that the attributes callback returns. -/
structure CsrAttrs where
  data : Option Bytes
  len : Int
  deriving DecidableEq

structure EstCtx where
  transportMode : TransportMode
  estMode : EstMode
  requireHttpAuth : HttpAuthRequired
  authMode : AuthMode
  estHttpAuthCb : Option (AuthCall → Bool)
  enhancedCertAuthEnabled : Bool
  enhancedCertAuthCsrCheck : Bool
  enchdCertMfgsInfoList : Option (Vector MfgInfo numSupportedMfg)
  enhcdCertLocalPkiNid : Nid
  enhcdCertAuthPwd : Bytes
  serverEnablePop : Bool
  enforceCsrattrs : Bool
  serverCsrattrs : Option Bytes
  estGetCsrCb : Option (Option Bytes → Option X509 → CsrAttrs)
  estEnrollPkcs10Cb : Option (CaRequest → CaAnswer)
  estReenrollPkcs10Cb : Option (CaRequest → CaAnswer)
  /-- The key goes in and out. -/
  estServerKeygenPkcs10Cb : Option (CaRequest → Bytes → CaAnswer × Bytes)
  keygenCb : Option (EstError × Option EvpPkey)
  signingDigest : Digest

end LibEst.Server.Context
