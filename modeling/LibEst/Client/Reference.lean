import LibEst.Client.AuthHeader

/-! A client as an application sets it up, with a hash for its digests. -/
namespace LibEst.Client.Reference

open LibEst.Lib.ByteString LibEst.Server.AuthHeader LibEst.Server.AuthDigest
open LibEst.Client.Context LibEst.Client.AuthHeader

/-- The hash of every text is the same here. -/
def hostMd5 : Md5 where
  hash _ := List.replicate 16 0xAB
  length _ := rfl

def hostEnv : AuthEnv where
  md5 := hostMd5
  random := some [0, 1, 2, 3, 4, 5, 6, 7]
  stack := []

/-- The application has a token at hand, and a user name and a password. -/
def hostCredentials (_ : AuthMode) : AppCredentials where
  user := some (ascii "alice")
  pwd := some (ascii ":se:cret")
  authToken := some (ascii "token")

def hostCtx : ClientCtx where
  estServer := ascii "ca.example"
  estPortNum := 8085
  uriPathSegment := none
  authCredentialsCb := some hostCredentials
  userid := ascii "alice"
  password := ascii ":se:cret"
  authMode := .none
  realm := []
  sNonce := []
  estClientInitialized := true
  signingDigest := ⟨672⟩
  lastHttpStatus := 0
  retryAfterDelay := 0
  retrievedCaCerts := none
  retrievedCsrattrs := none
  csrPopRequired := false
  clientForcePop := false
  enrolledClientCert := none
  serverGenClientPrivKey := none
  trustedCerts := ascii "ca.pem"

def estCsrAttrsUri : Bytes := ascii "/.well-known/est/csrattrs"

end LibEst.Client.Reference
