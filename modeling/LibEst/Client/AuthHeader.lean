import LibEst.SafeStr
import LibEst.Client.Context
import LibEst.Server.AuthDigest

/-! The Authorization header that the client adds to a request. Which scheme it
uses, and for a digest the realm and the nonce, is what the context says at that
moment. -/
namespace LibEst.Client.AuthHeader

open LibEst.Base64 LibEst.Lib.ByteString LibEst.SafeStr
open LibEst.Server.AuthHeader LibEst.Server.AuthDigest LibEst.Client.Context

def estHttpHdrMax : Nat := 1024
def estHttpReqDataMax : Nat := 4096
def estHttpReqTotalLen : Nat := estHttpHdrMax + estHttpReqDataMax + 5

def crlf : Bytes := [13, 10]

/-- What a header depends on besides the context: eight random bytes, null where
the generator fails, and the stack behind the copy of the user name. -/
structure AuthEnv where
  md5 : Md5
  random : Option Bytes
  stack : Bytes

/-- One of the two texts that the callback provides; one that is too long is
replaced by the empty text. -/
def providedText (text : Option Bytes) : Bytes :=
  match text with
  | none => []
  | some text => if maxUidpwd < text.length then [] else strcpyS maxUidpwd text []

def appCredentials (ctx : ClientCtx) (mode : AuthMode) : AppCredentials :=
  match ctx.authCredentialsCb with
  | none => noCredentials
  | some cb => cb mode

/-- The user name and the password of the application. The buffers that they are
copied to have been cleared before. -/
def estClientRetrieveCredentials (ctx : ClientCtx) (mode : AuthMode) : Bytes × Bytes :=
  let credentials := appCredentials ctx mode
  (providedText credentials.user, providedText credentials.pwd)

/-- Whether there are credentials from the configuration. -/
def hasCredentials (ctx : ClientCtx) : Bool := ¬ (ctx.userid = [] ∧ ctx.password = [])

def basicCredentials (ctx : ClientCtx) : Bytes × Bytes :=
  if hasCredentials ctx then (ctx.userid, ctx.password)
  else estClientRetrieveCredentials ctx .basic

/-- The copies for the digest are made into buffers that nobody has cleared. -/
def digestCredentials (ctx : ClientCtx) (stack : Bytes) : Bytes × Bytes :=
  if hasCredentials ctx then (strcpyS maxUidpwd ctx.userid (cString stack), ctx.password)
  else estClientRetrieveCredentials ctx .digest

/-- `snprintf` into a buffer of `n` bytes. -/
def snprintf (n : Nat) (text : Bytes) : Bytes := text.take (n - 1)

/-- The value of the Basic header; null where the encoding leaves its buffer. -/
def basicValue (ctx : ClientCtx) : Option Bytes :=
  let (user, pwd) := basicCredentials ctx
  let both := snprintf (maxUidpwd * 2 + 2) (user ++ ascii ":" ++ pwd)
  (estBase64Encode both (2 * 2 * maxUidpwd) false).map fun text => ascii "Basic " ++ text

/-- The token of the application, the empty text where there is none or where it
is too long. -/
def tokenText (ctx : ClientCtx) : Bytes :=
  match (appCredentials ctx .token).authToken with
  | none => []
  | some token => if maxAuthTokenLen < token.length then [] else token

def bearerValue (ctx : ClientCtx) : Option Bytes :=
  let token := (tokenText ctx).take maxAuthTokenLen
  (estBase64Encode token (maxAuthTokenLen * 2) false).map fun text => ascii "Bearer " ++ text

/-- The digest over the user name, the realm, the password, the nonces and the
resource. -/
def estClientGenerateAuthDigest (md5 : Md5) (ctx : ClientCtx) (cNonce uri user pwd : Bytes) :
    Bytes :=
  let ha1 := estHexToStr (md5.hash (user.take maxUidpwd ++ ascii ":" ++
    ctx.realm.take maxRealm ++ ascii ":" ++ pwd.take maxUidpwd))
  let ha2 := estHexToStr (md5.hash (ascii "POST" ++ ascii ":" ++ uri.take maxRealm))
  estHexToStr (md5.hash (ha1 ++ ascii ":" ++ ctx.sNonce.take maxNonce ++ ascii ":" ++
    ascii "00000001" ++ ascii ":" ++ cNonce.take maxNonce ++ ascii ":" ++ ascii "auth" ++
    ascii ":" ++ ha2))

/-- The text behind the name of the scheme. -/
def digestText (user realm nonce uri cnonce response : Bytes) : Bytes :=
  ascii "username=\"" ++ user ++ ascii "\", realm=\"" ++ realm ++ ascii "\", nonce=\"" ++ nonce ++
    ascii "\", uri=\"" ++ uri ++ ascii "\", cnonce=\"" ++ cnonce ++
    ascii "\", nc=00000001, qop=\"auth\", response=\"" ++ response ++ ascii "\""

/-- The value of the Digest header; null where there are no random bytes. -/
def digestValue (env : AuthEnv) (ctx : ClientCtx) (uri : Bytes) : Option Bytes :=
  env.random.map fun random =>
    let cNonce := estHexToStr random
    let (user, pwd) := digestCredentials ctx env.stack
    let digest := estClientGenerateAuthDigest env.md5 ctx cNonce uri user pwd
    ascii "Digest " ++ digestText user ctx.realm ctx.sNonce uri cNonce digest

/-- What becomes of the header of a request. -/
inductive AuthLine where
  | absent
  | value (text : Bytes)
  /-- The header is wiped, and the request is not sent. -/
  | wiped
  /-- A write behind the end of a buffer. -/
  | undefined
  deriving DecidableEq

def authLine (env : AuthEnv) (ctx : ClientCtx) (uri : Bytes) : AuthLine :=
  match ctx.authMode with
  | .basic => ((basicValue ctx).map AuthLine.value).getD .undefined
  | .digest => ((digestValue env ctx uri).map AuthLine.value).getD .wiped
  | .token => ((bearerValue ctx).map AuthLine.value).getD .undefined
  | .none => .absent
  | .fail => .absent

/-- The header with the new line behind it, cut at the end of the buffer. -/
def estClientAddAuthHdr (env : AuthEnv) (ctx : ClientCtx) (hdr uri : Bytes) : Option Bytes :=
  match authLine env ctx uri with
  | .absent => some hdr
  | .value text =>
      some (hdr ++ snprintf (estHttpReqTotalLen - hdr.length)
        (ascii "Authorization: " ++ text ++ crlf))
  | .wiped => some []
  | .undefined => none

end LibEst.Client.AuthHeader
