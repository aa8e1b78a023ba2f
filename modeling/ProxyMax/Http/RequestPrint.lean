import ProxyMax.Http.HostField
import ProxyMax.Http.RequestHead
import ProxyMax.Lib.Decimal

/-!
Requests with a `Host` field, printed and read back.

* `HostedRequest`: a request line, header lines that do not mention the field, the field
  with a host and a port or none, and the rest; `bytes` prints it.
* `splitHostPort_hostPort`: the value of the field, read back.
* `httpParseRequest_bytes`: `http_parse_request` undoes `bytes`.
-/

namespace ProxyMax

open CString

/-- A request with a `Host` field. The fields of its head are the header lines before that. -/
structure HostedRequest where
  head : RequestHead
  lines : List Bytes
  host : Bytes
  port : Option ℕ
  remainder : Bytes
  fits : head.Fits
  fields_eq : head.fields = fieldLines lines
  fields_not_nul : ∀ c ∈ head.fields, c ≠ 0
  not_named : strcasestr head.bytes (ascii "Host:") = none
  host_ne_nil : host ≠ []
  host_bytes : ∀ c ∈ host, c ≠ 58 ∧ c ≠ 13 ∧ c ≠ 10 ∧ c ≠ 0
  host_head : host.head? ≠ some 32
  port_le : ∀ n ∈ port, n ≤ 65535
  field_le : (host ++ (port.elim [] fun n => 58 :: decimal n)).length ≤ 255
  remainder_not_nul : ∀ c ∈ remainder, c ≠ 0

namespace HostedRequest

variable (r : HostedRequest)

/-- The value of the field. -/
def hostPort : Bytes := r.host ++ (r.port.elim [] fun n => 58 :: decimal n)

/-- The bytes of the request. -/
def bytes : Bytes := r.head.bytes ++ (ascii "Host: " ++ (r.hostPort ++ (crlf ++ r.remainder)))

/-- A number is made of digits. -/
lemma decimal_ne {n : ℕ} {c : UInt8} (hc : c ∈ decimal n) : c ≠ 13 ∧ c ≠ 0 := by
  have hdigit := decimal_isdigit c hc
  constructor <;> rintro rfl <;> cases hdigit

lemma hostPort_ne : ∀ c ∈ r.hostPort, c ≠ 13 ∧ c ≠ 0 := by
  intro c hc
  rcases List.mem_append.mp hc with hc | hc
  · obtain ⟨-, hcr, -, hnul⟩ := r.host_bytes c hc
    exact ⟨hcr, hnul⟩
  · cases hport : r.port with
    | none =>
        rw [hport] at hc
        cases hc
    | some n =>
        rw [hport] at hc
        rcases List.mem_cons.mp hc with rfl | hc
        · decide
        · exact decimal_ne hc

/-- **The value of the field** is read back. -/
lemma splitHostPort_hostPort :
    splitHostPort r.hostPort = (r.host, ((r.port.getD 80 : ℕ) : ℤ)) := by
  have hcolon : (58 : UInt8) ∉ r.host := fun hc => (r.host_bytes 58 hc).1 rfl
  rw [splitHostPort, hostPort]
  cases hport : r.port with
  | none =>
      rw [Option.elim_none, List.append_nil, strchr_eq_none_iff.mpr hcolon]
      rfl
  | some n =>
      have hle := r.port_le n hport
      have hnumber : atoi (decimal n) = n := by
        rw [← decimalInt_natCast]
        exact atoi_decimalInt (by omega) (by omega)
      rw [Option.elim_some, strchr_append hcolon]
      dsimp only
      rw [takeWhile_append_cons hcolon, List.tail_cons, hnumber]
      rfl

/-- There is no NUL in the request. -/
lemma cstr_bytes : cstr r.bytes = r.bytes := by
  refine cstr_of_not_nul fun c hc => ?_
  simp only [bytes, RequestHead.bytes, List.mem_append] at hc
  rcases hc with (hc | hc | hc) | hc | hc | hc | hc
  · exact r.head.line_ne_nul c hc
  · rintro rfl
    exact absurd hc (by decide)
  · exact r.fields_not_nul c hc
  · rintro rfl
    exact absurd hc (by decide)
  · exact (r.hostPort_ne c hc).2
  · rintro rfl
    exact absurd hc (by decide)
  · exact r.remainder_not_nul c hc

/-- The lines before the field end with a line end. -/
lemma head_bytes_eq : ∃ before, r.head.bytes = before ++ crlf := by
  rw [RequestHead.bytes, r.fields_eq, ← List.append_assoc]
  exact fieldLines_end r.head.line r.lines

lemma destinationOf_bytes (url : Bytes) :
    destinationOf r.bytes url = some (r.host, ((r.port.getD 80 : ℕ) : ℤ)) := by
  obtain ⟨before, hbefore⟩ := r.head_bytes_eq
  have hline : strstr r.hostPort crlf = none :=
    strstr_eq_none (c := 13) (by decide) fun hc => (r.hostPort_ne 13 hc).1 rfl
  have hhead : r.hostPort.head? ≠ some 32 := by
    obtain ⟨c, host, hhost⟩ := List.exists_cons_of_ne_nil r.host_ne_nil
    have hfirst := r.host_head
    rw [hhost] at hfirst
    rwa [hostPort, hhost]
  have hname : (ascii "Host:").map tolower = (ascii "Host:").map tolower := rfl
  have hfield := destinationOf_field (hbefore ▸ r.not_named) hname 1 hline hhead r.remainder url
  have hwhole : r.hostPort.take (maxHostname - 1) = r.hostPort := List.take_of_length_le r.field_le
  rw [hwhole, splitHostPort_hostPort, ← hbefore] at hfield
  exact hfield

end HostedRequest

/-- **Parse undoes print.** The words of the request line, the host and the port of a request
are read back from its bytes, whatever the variables held before; the port is 80 where none
is given. -/
theorem httpParseRequest_bytes (r : HostedRequest) (host : Bytes) (port : ℤ) :
    httpParseRequest (cstr r.bytes) host port = .ok (some
      ⟨r.head.method, r.head.url, r.head.version, r.host, ((r.port.getD 80 : ℕ) : ℤ)⟩) := by
  have hbytes : r.bytes = r.head.line ++ (crlf ++ (r.head.fields ++
      (ascii "Host: " ++ (r.hostPort ++ (crlf ++ r.remainder))))) := r.head.bytes_append _
  have hline : strstr r.bytes crlf ≠ none := by
    rw [hbytes]
    exact strstr_append_ne_none _ _ _
  have hscan : scanRequestLine r.bytes =
      .ok (some (r.head.method, r.head.url, r.head.version)) := by
    rw [hbytes, scanRequestLine_line, if_pos r.fits]
  rw [r.cstr_bytes, httpParseRequest, if_neg hline, hscan]
  simp only [bind, Except.bind, r.destinationOf_bytes]
  rfl

/-- A request with a header line before its `Host` field. -/
example : ∃ r : HostedRequest,
    r.bytes = ascii "GET / HTTP/1.1\r\nA: b\r\nHost: a:81\r\n\r\n" :=
  ⟨{  head := ⟨ascii "GET", ascii "/", ascii "HTTP/1.1", ascii "A: b\r\n",
        isWord_of_all (by decide) (by decide), isWord_of_all (by decide) (by decide),
        isWord_version⟩
      lines := [ascii "A: b"]
      host := ascii "a"
      port := some 81
      remainder := crlf
      fits := by decide +kernel
      fields_eq := by decide +kernel
      fields_not_nul := by decide +kernel
      not_named := by decide +kernel
      host_ne_nil := by decide
      host_bytes := by decide +kernel
      host_head := by decide
      port_le := by decide
      field_le := by decide +kernel
      remainder_not_nul := by decide +kernel }, by decide +kernel⟩

end ProxyMax
