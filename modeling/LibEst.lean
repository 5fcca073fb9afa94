import LibEst.Lib.Machine
import LibEst.Lib.SlotArray
import LibEst.Lib.ByteString
import LibEst.Lib.Der
import LibEst.Lib.Loop
import LibEst.Lib.Trace
import LibEst.Lib.Cbor
import LibEst.Lib.Cells
import LibEst.Basic
import LibEst.Base64
import LibEst.Base64Writes
import LibEst.Base64Reads
import LibEst.OpenSsl
import LibEst.SafeStr
import LibEst.Asn1
import LibEst.Coap.ReqTable
import LibEst.Coap.TableMap
import LibEst.Coap.Reference
import LibEst.Coap.TableInvariant
import LibEst.Coap.Handlers
import LibEst.Coap.HandlerCases
import LibEst.Coap.Server
import LibEst.Coap.ReferenceEnv
import LibEst.Coap.Isolation
import LibEst.Coap.Assembly
import LibEst.Coap.Freshness
import LibEst.Coap.Blockwise
import LibEst.Coap.UploadBound
import LibEst.Coap.KeygenEncoding
import LibEst.Server.AuthHeader
import LibEst.Server.Context
import LibEst.Server.EnhancedCertAuth
import LibEst.Server.EcaVerdicts
import LibEst.Server.MfgRegistry
import LibEst.Server.Reference
import LibEst.Server.EnrollAuth
import LibEst.Server.TlsUid
import LibEst.Server.CsrAttrs
import LibEst.Server.CsrAttrsWalk
import LibEst.Server.AttrList
import LibEst.Server.AttrVisits
import LibEst.Server.PopAdded
import LibEst.Server.CsrattrsUpdate
import LibEst.Server.AttrIteration
import LibEst.Server.CsrAsn1Framing
import LibEst.Server.CsrAttrsEnforcement
import LibEst.Server.CsrAttrsAgreement
import LibEst.Server.AuthPaths
import LibEst.Server.AuthNames
import LibEst.Server.Enroll
import LibEst.Server.EnrollGate
import LibEst.Server.Connection
import LibEst.Server.ConnectionUser
import LibEst.Server.Pop
import LibEst.Server.AuthDigest
import LibEst.Client.Context
import LibEst.Client.AuthHeader
import LibEst.Client.Reference
import LibEst.Client.AuthRoundTrip
import LibEst.Client.DigestRoundTrip
import LibEst.Server.KeygenResponse
import LibEst.Client.Multipart
import LibEst.Client.MultipartRead
import LibEst.Client.Http
import LibEst.Client.KeygenRoundTrip
import LibEst.Client.Request
import LibEst.Client.RequestText
import LibEst.Client.Answer
import LibEst.Client.Enroll
import LibEst.Client.Api
import LibEst.Client.EnrollCases
import LibEst.Client.ApiCases
import LibEst.Client.ReferenceEnv
import LibEst.Client.Credentials
import LibEst.Client.Initialized
import LibEst.Client.Delivery
import LibEst.Client.PopRequirement
import LibEst.Client.PathSegment
import LibEst.Client.Jsmn
import LibEst.Client.Voucher
import LibEst.Client.VoucherAcceptance
import LibEst.Server.HttpMessage
import LibEst.Server.Framing
import LibEst.Server.Uri
import LibEst.Server.Routing
import LibEst.Server.RoutingExact
import LibEst.Server.RoutingBuilds
import LibEst.Proxy.KeygenResponse
import LibEst.Proxy.ClientTable
import LibEst.Proxy.Forwarding
import LibEst.Proxy.UpstreamUri
import LibEst.Proxy.AttemptBounds
import LibEst.Coap.Exchanges
import LibEst.Server.HttpRequest
import LibEst.Server.Bracketing
import LibEst.Client.RequestTarget
import LibEst.Client.Configuration
import LibEst.Client.CacertResponse
import LibEst.Client.RequestBuffer
import LibEst.Inet
import LibEst.Client.HostNames
import LibEst.Client.HeaderLines
import LibEst.Client.ResponseText
import LibEst.Client.FieldScan
import LibEst.Client.ChallengeTokens
import LibEst.Client.Challenge
import LibEst.Client.VerifyHost
import LibEst.Client.MultipartAccess
import LibEst.Client.KeygenSafety
import LibEst.Wire.Message
import LibEst.Wire.Challenges
import LibEst.Wire.Replies
import LibEst.Wire.Dispatch
import LibEst.Wire.Requests
import LibEst.Wire.EnrollCall
import LibEst.Wire.Handshake
import LibEst.Tokenizer
import LibEst.TokenizedWords
import LibEst.Proxy.Dispatch
import LibEst.Wire.Relay
