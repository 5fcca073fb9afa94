import LibEst.Lib.ByteString

/-! Enumerations of `est.h` and `est_locl.h` that more than one part of the
library reads. -/
namespace LibEst.Basic

/-- The error codes that the modelled functions return or test. -/
inductive EstError where
  | none
  | noCtx
  | noCsr
  | invalidParameters
  | badMode
  | badPkcs10
  | httpWrite
  | httpUnsupported
  | httpBadReq
  | httpNotFound
  | httpNoContent
  | httpLocked
  | badContentType
  | noSslCtx
  | authFail
  | authFailTlsuid
  | authPending
  | caEnrollFail
  | caEnrollRetry
  | wrongMethod
  | x509Sign
  | x509Attr
  | x509Pubkey
  | malloc
  | nullCallback
  | ipConnect
  | invalidPortNum
  | syscall
  | csrAttrMissing
  | badBase64
  | badX509
  | cbFailed
  | badKey
  | encPrivKeyCms
  | coapProcessingError
  | serverAlreadyOperational
  | validation
  | noKey
  | badAsn1Hex
  | badAsn1HexTooShort
  | badAsn1HexTooLong
  | unknown
  | clientNotInitialized
  | clientInvalidKey
  | noCert
  | noCertificate
  | invalidServerName
  | invalidToken
  | invalidRetryValue
  | ipGetaddr
  | sslNew
  | sslConnect
  | sslRead
  | sslWrite
  | fqdnMismatch
  | readBufferTooSmall
  | httpCannotBuildHeader
  | httpInvalidPathSegment
  | zeroLengthBuf
  | bufExceedsMaxLen
  | multipartParse
  | pemRead
  | loadTrustCerts
  | cacertVerification
  | noCertsFound
  | loadCacerts
  | clientBrskiSerialNumMissing
  | clientBrskiSerialNumTooLarge
  | clientBrskiSerialNumMismatch
  | clientBrskiNonceTooLarge
  | clientBrskiNonceMismatch
  | clientBrskiVoucherVerifyFailed
  | alreadyEnabled
  | alreadyDisabled
  deriving DecidableEq, Repr

inductive EstMode where
  | client
  | server
  | proxy
  deriving DecidableEq, Repr

inductive TransportMode where
  | http
  | coap
  deriving DecidableEq, Repr

inductive HttpAuthRequired where
  | notRequired
  | required
  deriving DecidableEq, Repr

inductive EstOperation where
  | simpleEnroll
  | simpleReenroll
  | cacerts
  | csrattrs
  | serverKeygen
  | brskiReqVoucher
  | brskiVoucherStatus
  | brskiEnrollStatus
  deriving DecidableEq, Repr

/-- In the order of `EST_ENROLL_REQ_TYPE`: the first constructor is the one
that counts as false where the source tests the value itself. -/
inductive EnrollReqType where
  | simpleEnroll
  | reenroll
  | serverKeygen
  deriving DecidableEq, Repr

def EnrollReqType.isTrue : EnrollReqType → Bool
  | .simpleEnroll => false
  | .reenroll => true
  | .serverKeygen => true

end LibEst.Basic
