import LibEst.OpenSsl
import LibEst.Server.AuthHeader

/-! The context of a client: where it talks to, the credentials it has, and what
it remembers from one call of the interface to the next. -/
namespace LibEst.Client.Context

open LibEst.Lib.ByteString LibEst.OpenSsl LibEst.Server.AuthHeader

/-- What the credentials callback of the application fills in. -/
structure AppCredentials where
  user : Option Bytes
  pwd : Option Bytes
  authToken : Option Bytes
  deriving DecidableEq

def noCredentials : AppCredentials where
  user := none
  pwd := none
  authToken := none

structure ClientCtx where
  estServer : Bytes
  estPortNum : Nat
  uriPathSegment : Option Bytes
  authCredentialsCb : Option (AuthMode → AppCredentials)
  userid : Bytes
  password : Bytes
  authMode : AuthMode
  realm : Bytes
  sNonce : Bytes
  estClientInitialized : Bool
  signingDigest : Digest
  lastHttpStatus : Int
  retryAfterDelay : Nat
  retrievedCaCerts : Option Bytes
  retrievedCsrattrs : Option Bytes
  csrPopRequired : Bool
  clientForcePop : Bool
  enrolledClientCert : Option Bytes
  serverGenClientPrivKey : Option Bytes
  /-- The certificates in the trust store, as they were loaded. -/
  trustedCerts : Bytes

end LibEst.Client.Context
