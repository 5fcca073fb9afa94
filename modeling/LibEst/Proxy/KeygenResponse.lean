import LibEst.Client.KeygenRoundTrip

/-! The answer to a key generation as the proxy passes it on. Its body is the
server's with a line feed in front; the length in its header counts the two texts
and none of the lines around them. The client of the library does not look at the
length and reads both texts; no stream of the proxy is framed as announced. -/
namespace LibEst.Proxy.KeygenResponse

open LibEst.Basic LibEst.Lib.ByteString LibEst.SafeStr LibEst.Server.KeygenResponse
open LibEst.Client.Context LibEst.Client.Multipart LibEst.Client.Http LibEst.Client.KeygenRoundTrip
open LibEst.Client.Reference

/-- The general headers, the first boundary and the headers of the key. -/
def firstHdr (key pkcs7 : Bytes) : Bytes :=
  ascii "HTTP/1.1 200\r\nStatus: 200 OK\r\n" ++
    ascii "Content-Type: multipart/mixed; boundary=" ++ estHttpBoundary ++ ascii "\r\n" ++
    ascii "Content-Length: " ++ decimal (key.length + pkcs7.length) ++ ascii "\r\n\r\n" ++
    ascii "\n--" ++ estHttpBoundary ++ ascii "\r\n" ++
    ascii "Content-Type: application/pkcs8\r\n" ++
    ascii "Content-Transfer-Encoding: base64\r\n\r\n"

def certBoundary : Bytes := ascii "\r\n--" ++ estHttpBoundary ++ ascii "\r\n"

def certTypeHdr : Bytes :=
  ascii "Content-Type: application/pkcs7-mime; smime-type=certs-only\r\n" ++
    ascii "Content-Transfer-Encoding: base64\r\n\r\n"

/-- The writes of `est_proxy_propagate_keygen_rsp`, in their order. -/
def estProxyPropagateKeygenRsp (key pkcs7 : Bytes) : List Bytes :=
  [firstHdr key pkcs7, key, certBoundary, certTypeHdr, pkcs7,
    ascii "\r\n--" ++ estHttpBoundary ++ ascii "--\r\n\r\n"]

def proxyStream (key pkcs7 : Bytes) : Bytes := (estProxyPropagateKeygenRsp key pkcs7).flatten

/-- The header names as its length the number of bytes that follow it. -/
def DeclaresItsLength (stream : Bytes) : Prop := ∃ body, Framed stream body.length body

/-- What the proxy passes on is framed as it says, has the parts that the server
would have written, and is read by the client like the server's own answer. -/
structure ForwardsLikeServer (key cert : Bytes) : Prop where
  length : DeclaresItsLength (proxyStream key cert)
  parts : ∃ gap, (∀ c ∈ gap, c ∈ lineEnd) ∧
    strstr headerDelimiter (proxyStream key cert) =
      some (headerDelimiter ++ (gap ++ keygenBody key cert))
  decoded : ∀ (ctx : ClientCtx) (chunks others : List Bytes),
    (∀ chunk ∈ chunks, chunk ≠ []) → (∀ chunk ∈ others, chunk ≠ []) →
    chunks.flatten = proxyStream key cert → others.flatten = keygenStream key cert →
    estIoGetResponseInternal ctx .serverKeygen (chunks.map some) =
      estIoGetResponseInternal ctx .serverKeygen (others.map some)

section Lines

variable {key cert : Bytes}

theorem proxyStream_eq (key cert : Bytes) :
    proxyStream key cert =
      answerLines (ascii "HTTP/1.1 200") (key.length + cert.length) [10] (keygenBody key cert) := by
  have hfront : ascii "HTTP/1.1 200\r\nStatus: 200 OK\r\n" ++
      ascii "Content-Type: multipart/mixed; boundary=" ++ estHttpBoundary ++ ascii "\r\n" ++
      ascii "Content-Length: " =
      ascii "HTTP/1.1 200" ++ 13 :: 10 :: (ascii "Status" ++ 58 :: 32 :: (ascii "200 OK" ++
        13 :: 10 :: (ascii "Content-Type" ++ 58 :: 32 :: (mixedValue ++ 13 :: 10 ::
          (ascii "Content-Length" ++ [58, 32]))))) := by
    decide +kernel
  have hend : ascii "\r\n\r\n" ++ ascii "\n--" = [13, 10, 13, 10, 10] ++ ascii "--" := by decide
  have hcert : certHdr = certBoundary ++ certTypeHdr := by
    unfold certHdr certBoundary certTypeHdr
    simp only [List.append_assoc]
  have hfirst : firstHdr key cert = (ascii "HTTP/1.1 200\r\nStatus: 200 OK\r\n" ++
      ascii "Content-Type: multipart/mixed; boundary=" ++ estHttpBoundary ++ ascii "\r\n" ++
      ascii "Content-Length: ") ++ decimal (key.length + cert.length) ++
      ((ascii "\r\n\r\n" ++ ascii "\n--") ++ estHttpBoundary ++ ascii "\r\n" ++
        ascii "Content-Type: application/pkcs8\r\n" ++
        ascii "Content-Transfer-Encoding: base64\r\n\r\n") := by
    unfold firstHdr
    simp only [List.append_assoc]
  rw [hfront, hend] at hfirst
  unfold proxyStream estProxyPropagateKeygenRsp answerLines keygenBody pvtKeyHdr finalBndryHdr
  rw [hfirst, hcert]
  simp only [List.flatten_cons, List.flatten_nil, List.append_nil, List.append_assoc,
    List.cons_append, List.nil_append]

theorem framed_proxyStream (key cert : Bytes) :
    Framed (proxyStream key cert) (key.length + cert.length) (10 :: keygenBody key cert) where
  lastLine := by
    have hline : ascii "\r\nContent-Length: " =
        13 :: 10 :: (ascii "Content-Length" ++ [58, 32]) := by
      decide
    refine ⟨ascii "HTTP/1.1 200" ++ 13 :: 10 :: (ascii "Status" ++ 58 :: 32 :: (ascii "200 OK" ++
      13 :: 10 :: (ascii "Content-Type" ++ 58 :: 32 :: mixedValue))), ?_⟩
    rw [proxyStream_eq, answerLines, hline, headerDelimiter]
    simp only [List.append_assoc, List.cons_append, List.nil_append]
  firstDelimiter := by
    rw [proxyStream_eq, strstr_answerLines (by decide)]
    rfl

/-- The texts behind the last of some separators are the same if the wholes are. -/
theorem behind_separator {c : UInt8} {a b x y : Bytes} (hx : c ∉ x) (hy : c ∉ y)
    (h : a ++ c :: x = b ++ c :: y) : x = y := by
  have htake : ∀ front text : Bytes, c ∉ text →
      (front ++ c :: text).reverse.takeWhile (· ≠ c) = text.reverse := by
    intro front text htext
    rw [List.reverse_append, List.reverse_cons, List.append_assoc,
      List.takeWhile_append_of_pos (by
        intro d hd
        simp only [decide_eq_true_eq]
        rintro rfl
        exact htext (List.mem_reverse.mp hd))]
    simp
  have hreverse := htake a x hx
  rw [h, htake b y hy] at hreverse
  exact (List.reverse_injective hreverse).symm

/-- A stream has one body and one length. -/
theorem framed_unique {stream body other : Bytes} {length count : Nat}
    (h : Framed stream length body) (hother : Framed stream count other) :
    body = other ∧ length = count := by
  have hbody : body = other := by
    have hfirst := h.firstDelimiter.symm.trans hother.firstDelimiter
    exact List.append_cancel_left (Option.some.inj hfirst)
  refine ⟨hbody, ?_⟩
  subst hbody
  obtain ⟨front, hfront⟩ := h.lastLine
  obtain ⟨behind, hbehind⟩ := hother.lastLine
  have hline : ascii "\r\nContent-Length: " = ascii "\r\nContent-Length:" ++ [32] := by decide
  have hsame := hfront.symm.trans hbehind
  rw [List.append_left_inj, List.append_left_inj, hline] at hsame
  simp only [← List.append_assoc] at hsame
  have hspace : ∀ n, (32 : UInt8) ∉ decimal n := fun n => not_mem_decimal (by decide) n
  apply decimal_injective
  have hsplit : ∀ (text : Bytes) n, text ++ ascii "\r\nContent-Length:" ++ [32] ++ decimal n =
      (text ++ ascii "\r\nContent-Length:") ++ 32 :: decimal n := by
    intro text n
    simp only [List.append_assoc, List.cons_append, List.nil_append]
  rw [hsplit, hsplit] at hsame
  exact behind_separator (hspace length) (hspace count) hsame

end Lines

/-- The length is that of the texts alone, and more than the texts is written. -/
theorem proxyStream_misframed (key cert : Bytes) : ¬ DeclaresItsLength (proxyStream key cert) := by
  rintro ⟨body, hframed⟩
  obtain ⟨rfl, hlength⟩ := framed_unique (framed_proxyStream key cert) hframed
  rw [List.length_cons, keygenBody_length, contentLength] at hlength
  omega

/-- Whatever the two texts are, the header of the proxy is wrong about the body. -/
theorem keygen_forward_misframed (key cert : Bytes) : ¬ ForwardsLikeServer key cert :=
  fun h => proxyStream_misframed key cert h.length

/-- The parts are the server's, and the client that does not count reads them. -/
theorem proxyStream_decoded (ctx : ClientCtx) {key cert : Bytes} (hkey : TransferText 256 8192 key)
    (hcert : TransferText 128 4096 cert) {chunks : List Bytes}
    (hne : ∀ chunk ∈ chunks, chunk ≠ []) (hchunks : chunks.flatten = proxyStream key cert) :
    estIoGetResponseInternal ctx .serverKeygen (chunks.map some) =
      some ({ ctx with lastHttpStatus := 200 },
        if onlyWhitespace key ∨ onlyWhitespace cert then .error .multipartParse
        else .ok ⟨some key, some cert⟩) := by
  have hkeyHdr : pvtKeyHdr.length ≤ 1000 := by decide +kernel
  have hcertHdr : certHdr.length ≤ 1000 := by decide +kernel
  have hfinal : finalBndryHdr.length ≤ 1000 := by decide +kernel
  have hkeyHigh := hkey.high
  have hcertHigh := hcert.high
  have hbodyLength := keygenBody_length key cert
  unfold contentLength at hbodyLength
  have hdecimal : (decimal (key.length + cert.length)).length ≤ 5 :=
    numeral_length_le (by decide) (by decide) (by omega)
  have hmixed : mixedValue.length = 45 := by decide +kernel
  have hsize : (answerLines (ascii "HTTP/1.1 200") (key.length + cert.length) [10]
      (keygenBody key cert)).length < estCaMax := by
    have hfirst : (ascii "HTTP/1.1 200").length = 12 := by decide
    have hstatus : (ascii "Status").length = 6 := by decide
    have hok : (ascii "200 OK").length = 6 := by decide
    have htype : (ascii "Content-Type").length = 12 := by decide
    have hname : (ascii "Content-Length").length = 14 := by decide
    unfold answerLines
    simp only [List.length_append, List.length_cons, List.length_nil, estCaMax]
    omega
  have hzero : (0 : UInt8) ∉ answerLines (ascii "HTTP/1.1 200") (key.length + cert.length) [10]
      (keygenBody key cert) := by
    have hbody := zero_not_mem_keygenBody (fun h => (hkey.bytes 0 h).ne.2.1 rfl)
      fun h => (hcert.bytes 0 h).ne.2.1 rfl
    have hnumber : (0 : UInt8) ∉ decimal (key.length + cert.length) := not_mem_decimal (by decide) _
    have hvalue : (0 : UInt8) ∉ mixedValue := by decide +kernel
    have hfirst : (0 : UInt8) ∉ ascii "HTTP/1.1 200" := by decide
    have hstatus : (0 : UInt8) ∉ ascii "Status" := by decide
    have hok : (0 : UInt8) ∉ ascii "200 OK" := by decide
    have htype : (0 : UInt8) ∉ ascii "Content-Type" := by decide
    have hname : (0 : UInt8) ∉ ascii "Content-Length" := by decide
    unfold answerLines
    simp only [List.mem_append, List.mem_cons, hbody, hnumber, hvalue, hfirst, hstatus, hok, htype,
      hname, List.not_mem_nil]
    decide
  rw [proxyStream_eq] at hchunks
  exact getResponse_answerLines ctx hkey hcert (by decide) (by decide) rfl hzero hsize hne hchunks

/-- A key and a certificate of the least size a client takes: the header says 384,
and more than that follows. -/
theorem keygen_forward_misframed_short :
    ¬ ForwardsLikeServer (List.replicate 256 65) (List.replicate 128 66) :=
  fun h => proxyStream_misframed _ _ h.length

end LibEst.Proxy.KeygenResponse
