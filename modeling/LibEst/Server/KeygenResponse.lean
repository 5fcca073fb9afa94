import LibEst.Lib.ByteString

/-! What `est_handle_server_keygen` writes to the connection once it has a key and
a certificate: the header, and a body of two parts. -/
namespace LibEst.Server.KeygenResponse

open LibEst.Lib.ByteString

def estHttpBoundary : Bytes := ascii "est-server-boundary"

def pvtKeyHdr : Bytes :=
  ascii "--" ++ estHttpBoundary ++ ascii "\r\n" ++
    ascii "Content-Type: application/pkcs8\r\n" ++
    ascii "Content-Transfer-Encoding: base64\r\n\r\n"

def certHdr : Bytes :=
  ascii "\r\n--" ++ estHttpBoundary ++ ascii "\r\n" ++
    ascii "Content-Type: application/pkcs7-mime; smime-type=certs-only\r\n" ++
    ascii "Content-Transfer-Encoding: base64\r\n\r\n"

def finalBndryHdr : Bytes := ascii "\r\n--" ++ estHttpBoundary ++ ascii "--\r\n\r\n"

/-- The value of the Content-Length header. -/
def contentLength (b64der cert : Bytes) : Nat :=
  pvtKeyHdr.length + b64der.length + certHdr.length + cert.length + finalBndryHdr.length

def httpHdr (b64der cert : Bytes) : Bytes :=
  ascii "HTTP/1.1 200 OK\r\nStatus: 200 OK\r\n" ++
    ascii "Content-Type: multipart/mixed; boundary=" ++ estHttpBoundary ++ ascii "\r\n" ++
    ascii "Content-Length: " ++ decimal (contentLength b64der cert) ++ ascii "\r\n\r\n"

/-- The six writes, in their order. -/
def keygenWrites (b64der cert : Bytes) : List Bytes :=
  [httpHdr b64der cert, pvtKeyHdr, b64der, certHdr, cert, finalBndryHdr]

end LibEst.Server.KeygenResponse
