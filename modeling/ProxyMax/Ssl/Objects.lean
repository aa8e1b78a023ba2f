import ProxyMax.Compression.Headers
import ProxyMax.Lib.Ownership

/-!
`src/protocols/ssl.c`: the calls of the library for TLS, and the functions that make them.

* `SslCall`, `SslAnswer`: the calls of the library, of the allocator and of the mutex.
* `sslLedger`: what a call gains, gives back and needs.
* `sslCreateServerContext`, `sslCreateClientContext`, `sslAcceptConnection`, `sslRead`,
  `sslWrite`, `sslGetPeerCertInfo`, `sslGetCipherInfo`, `sslShutdown`, `sslCleanup`: the
  functions on contexts.
* `sslGenerateSelfSignedCert`: the certificate that is made when there is none.
-/

namespace ProxyMax.Ssl

open CString Interaction Ownership

/-- What has to be freed or released. Pointers are numbers. -/
inductive Object where
  | mutex
  | ctx (p : ℕ)
  | ssl (p : ℕ)
  | wrapper (p : ℕ)
  | rsa (p : ℕ)
  | bn (p : ℕ)
  | pkey (p : ℕ)
  | x509 (p : ℕ)
  | file (p : ℕ)
deriving DecidableEq

/-- A call of the library, of the allocator or of the mutex. -/
inductive SslCall where
  | lock
  | unlock
  | errPrintErrors
  | evpCleanup
  | errFreeStrings
  | ctxNew (isServer : Bool)
  | ctxSetMinProtoVersion (ctx version : ℕ)
  | ctxUseCertificateFile (ctx : ℕ) (certFile : Bytes)
  | ctxUsePrivateKeyFile (ctx : ℕ) (keyFile : Bytes)
  | ctxCheckPrivateKey (ctx : ℕ)
  | ctxSetCipherList (ctx : ℕ) (ciphers : Bytes)
  | ctxSetVerifyNone (ctx : ℕ)
  | ctxFree (ctx : ℕ)
  | new (ctx : ℕ)
  | setFd (ssl : ℕ) (sockfd : ℤ)
  | connect (ssl : ℕ)
  | accept (ssl : ℕ)
  | read (ssl : ℕ) (len : ℤ)
  | write (ssl : ℕ) (buf : Bytes) (len : ℤ)
  | getError (ssl : ℕ) (ret : ℤ)
  | getPeerCertificate (ssl : ℕ)
  | getCipher (ssl : ℕ)
  | shutdown (ssl : ℕ)
  | free (ssl : ℕ)
  | malloc
  | freeWrapper (p : ℕ)
  | subjectOneline (x509 : ℕ)
  | issuerOneline (x509 : ℕ)
  | rsaNew
  | rsaGenerateKey (rsa bits bn : ℕ)
  | rsaFree (rsa : ℕ)
  | bnNew
  | bnSetWord (bn word : ℕ)
  | bnFree (bn : ℕ)
  | pkeyNew
  | pkeyAssignRsa (pkey : Option ℕ) (rsa : ℕ)
  | pkeyFree (pkey : ℕ)
  | x509New
  | x509SetVersion (x509 version : ℕ)
  | x509SetSerialNumber (x509 serial : ℕ)
  | x509SetNotBefore (x509 seconds : ℕ)
  | x509SetNotAfter (x509 seconds : ℕ)
  | x509SetPubkey (x509 : ℕ) (pkey : Option ℕ)
  | x509AddEntry (x509 : ℕ) (field text : Bytes)
  | x509SetIssuerName (x509 : ℕ)
  | x509Sign (x509 : ℕ) (pkey : Option ℕ)
  | x509Free (x509 : ℕ)
  | fopen (name : Bytes)
  | pemWritePrivateKey (fp : ℕ) (pkey : Option ℕ)
  | pemWriteX509 (fp x509 : ℕ)
  | fclose (fp : ℕ)

/-- What a call returns: a null pointer is `none`. What `SSL_read` puts into the buffer comes
with its result. -/
abbrev SslAnswer : SslCall → Type
  | .ctxNew _ => Option ℕ
  | .ctxUseCertificateFile _ _ => ℤ
  | .ctxUsePrivateKeyFile _ _ => ℤ
  | .ctxCheckPrivateKey _ => ℤ
  | .new _ => Option ℕ
  | .connect _ => ℤ
  | .accept _ => ℤ
  | .read _ _ => ℤ × Bytes
  | .write _ _ _ => ℤ
  | .getError _ _ => ℤ
  | .getPeerCertificate _ => Option ℕ
  | .getCipher _ => Bytes
  | .malloc => Option ℕ
  | .subjectOneline _ => Bytes
  | .issuerOneline _ => Bytes
  | .rsaNew => Option ℕ
  | .rsaGenerateKey _ _ _ => ℤ
  | .bnNew => Option ℕ
  | .bnSetWord _ _ => ℤ
  | .pkeyNew => Option ℕ
  | .pkeyAssignRsa _ _ => ℤ
  | .x509New => Option ℕ
  | .x509Sign _ _ => ℤ
  | .fopen _ => Option ℕ
  | .pemWritePrivateKey _ _ => ℤ
  | .pemWriteX509 _ _ => ℤ
  | _ => Unit

/-- Why a function stops: it uses a null pointer. -/
inductive SslFault where
  | nullPointer
deriving DecidableEq

/-- A program of these calls. -/
abbrev SslProg := Prog SslCall SslAnswer SslFault

/-- The call `c` alone. -/
abbrev sslCall (c : SslCall) : SslProg (SslAnswer c) := ask c

/-! ### The ledger -/

/-- An object, where the pointer is not null. -/
def object (kind : ℕ → Object) (p : Option ℕ) : Multiset Object := p.elim 0 fun p => {kind p}

/-- What a call gains. -/
def gains : (c : SslCall) → SslAnswer c → Multiset Object
  | .lock, _ => {.mutex}
  | .ctxNew _, p => object .ctx p
  | .new _, p => object .ssl p
  | .getPeerCertificate _, p => object .x509 p
  | .malloc, p => object .wrapper p
  | .rsaNew, p => object .rsa p
  | .bnNew, p => object .bn p
  | .pkeyNew, p => object .pkey p
  | .x509New, p => object .x509 p
  | .fopen _, p => object .file p
  | _, _ => 0

/-- What a call needs. -/
def needs : SslCall → Multiset Object
  | .unlock => {.mutex}
  | .ctxSetMinProtoVersion ctx _ => {.ctx ctx}
  | .ctxUseCertificateFile ctx _ => {.ctx ctx}
  | .ctxUsePrivateKeyFile ctx _ => {.ctx ctx}
  | .ctxCheckPrivateKey ctx => {.ctx ctx}
  | .ctxSetCipherList ctx _ => {.ctx ctx}
  | .ctxSetVerifyNone ctx => {.ctx ctx}
  | .ctxFree ctx => {.ctx ctx}
  | .new ctx => {.ctx ctx}
  | .setFd ssl _ => {.ssl ssl}
  | .connect ssl => {.ssl ssl}
  | .accept ssl => {.ssl ssl}
  | .read ssl _ => {.ssl ssl}
  | .write ssl _ _ => {.ssl ssl}
  | .getError ssl _ => {.ssl ssl}
  | .getPeerCertificate ssl => {.ssl ssl}
  | .getCipher ssl => {.ssl ssl}
  | .shutdown ssl => {.ssl ssl}
  | .free ssl => {.ssl ssl}
  | .freeWrapper p => {.wrapper p}
  | .subjectOneline x509 => {.x509 x509}
  | .issuerOneline x509 => {.x509 x509}
  | .rsaGenerateKey rsa _ bn => {.bn bn} + {.rsa rsa}
  | .rsaFree rsa => {.rsa rsa}
  | .bnSetWord bn _ => {.bn bn}
  | .bnFree bn => {.bn bn}
  | .pkeyAssignRsa pkey rsa => object .pkey pkey + {.rsa rsa}
  | .pkeyFree pkey => {.pkey pkey}
  | .x509SetVersion x509 _ => {.x509 x509}
  | .x509SetSerialNumber x509 _ => {.x509 x509}
  | .x509SetNotBefore x509 _ => {.x509 x509}
  | .x509SetNotAfter x509 _ => {.x509 x509}
  | .x509SetPubkey x509 pkey => object .pkey pkey + {.x509 x509}
  | .x509AddEntry x509 _ _ => {.x509 x509}
  | .x509SetIssuerName x509 => {.x509 x509}
  | .x509Sign x509 pkey => object .pkey pkey + {.x509 x509}
  | .x509Free x509 => {.x509 x509}
  | .pemWritePrivateKey fp pkey => object .pkey pkey + {.file fp}
  | .pemWriteX509 fp x509 => {.x509 x509} + {.file fp}
  | .fclose fp => {.file fp}
  | _ => 0

/-- What a call gives back. A key that was assigned belongs to the other one. -/
def gives : (c : SslCall) → SslAnswer c → Multiset Object
  | .unlock, _ => {.mutex}
  | .ctxFree ctx, _ => {.ctx ctx}
  | .free ssl, _ => {.ssl ssl}
  | .freeWrapper p, _ => {.wrapper p}
  | .rsaFree rsa, _ => {.rsa rsa}
  | .bnFree bn, _ => {.bn bn}
  | .pkeyAssignRsa _ rsa, ret => if ret = 0 then 0 else {.rsa rsa}
  | .pkeyFree pkey, _ => {.pkey pkey}
  | .x509Free x509, _ => {.x509 x509}
  | .fclose fp, _ => {.file fp}
  | _, _ => 0

lemma gives_le (c : SslCall) (r : SslAnswer c) : gives c r ≤ needs c := by
  cases c with
  | pkeyAssignRsa pkey rsa =>
      simp only [gives]
      split
      · exact zero_le
      · exact Multiset.le_add_left ..
  | unlock => exact le_rfl
  | ctxFree ctx => exact le_rfl
  | free ssl => exact le_rfl
  | freeWrapper p => exact le_rfl
  | rsaFree rsa => exact le_rfl
  | bnFree bn => exact le_rfl
  | pkeyFree pkey => exact le_rfl
  | x509Free x509 => exact le_rfl
  | fclose fp => exact le_rfl
  | _ => exact zero_le

/-- The ledger of the library's objects and the mutex. -/
def sslLedger : Discipline SslAnswer Object := ⟨gains, gives, needs, gives_le⟩

/-! ### The functions on contexts -/

/-- `ssl_context_t`. -/
structure SslContext where
  ptr : ℕ
  ctx : Option ℕ
  ssl : Option ℕ
  isServer : Bool

/-- What a context keeps. -/
def SslContext.owns (c : SslContext) : Multiset Object :=
  {.wrapper c.ptr} + (if c.isServer then 0 else object .ctx c.ctx) + object .ssl c.ssl

/-- `TLS1_2_VERSION`. -/
def tls12Version : ℕ := 771

/-- The cipher suites of the server. -/
def cipherList : Bytes :=
  ascii ("ECDHE-RSA-AES256-GCM-SHA384:ECDHE-RSA-AES128-GCM-SHA256:" ++
    "ECDHE-RSA-AES256-SHA384:ECDHE-RSA-AES128-SHA256")

/-- A length, as it is passed for an `int`. -/
def intLength (len : ℕ) : ℤ := (len : ℤ).bmod (2 ^ 32)

/-- `ssl_create_server_context`, where a step fails: the context is freed. -/
def serverContextFailed (ctx : ℕ) : SslProg (ℤ × Option ℕ) := do
  sslCall .errPrintErrors
  sslCall (.ctxFree ctx)
  sslCall .unlock
  pure (-1, none)

/-- `ssl_create_server_context`, with the new `g_server_ssl_ctx`. -/
def sslCreateServerContext (certFile keyFile : Bytes) : SslProg (ℤ × Option ℕ) := do
  sslCall .lock
  match ← sslCall (.ctxNew true) with
  | none => do
      sslCall .errPrintErrors
      sslCall .unlock
      pure (-1, none)
  | some ctx => do
      sslCall (.ctxSetMinProtoVersion ctx tls12Version)
      let certLoaded ← sslCall (.ctxUseCertificateFile ctx certFile)
      if certLoaded ≤ 0 then serverContextFailed ctx
      else do
        let keyLoaded ← sslCall (.ctxUsePrivateKeyFile ctx keyFile)
        if keyLoaded ≤ 0 then serverContextFailed ctx
        else do
          let keyMatches ← sslCall (.ctxCheckPrivateKey ctx)
          if keyMatches = 0 then serverContextFailed ctx
          else do
            sslCall (.ctxSetCipherList ctx cipherList)
            sslCall .unlock
            pure (0, some ctx)

/-- `ssl_create_client_context`. -/
def sslCreateClientContext (sockfd : ℤ) : SslProg (Option SslContext) := do
  match ← sslCall (.ctxNew false) with
  | none => do
      sslCall .errPrintErrors
      pure none
  | some ctx => do
      sslCall (.ctxSetMinProtoVersion ctx tls12Version)
      sslCall (.ctxSetVerifyNone ctx)
      match ← sslCall (.new ctx) with
      | none => do
          sslCall .errPrintErrors
          sslCall (.ctxFree ctx)
          pure none
      | some ssl => do
          sslCall (.setFd ssl sockfd)
          let connected ← sslCall (.connect ssl)
          if connected ≤ 0 then do
            sslCall .errPrintErrors
            sslCall (.free ssl)
            sslCall (.ctxFree ctx)
            pure none
          else do
            match ← sslCall .malloc with
            | none => do
                sslCall (.free ssl)
                sslCall (.ctxFree ctx)
                pure none
            | some ptr => pure (some ⟨ptr, some ctx, some ssl, false⟩)

/-- `ssl_accept_connection`. -/
def sslAcceptConnection (gServerSslCtx : Option ℕ) (sockfd : ℤ) : SslProg (Option SslContext) :=
  match gServerSslCtx with
  | none => pure none
  | some ctx => do
      sslCall .lock
      match ← sslCall (.new ctx) with
      | none => do
          sslCall .errPrintErrors
          sslCall .unlock
          pure none
      | some ssl => do
          sslCall .unlock
          sslCall (.setFd ssl sockfd)
          let accepted ← sslCall (.accept ssl)
          if accepted ≤ 0 then do
            sslCall .errPrintErrors
            sslCall (.free ssl)
            pure none
          else do
            match ← sslCall .malloc with
            | none => do
                sslCall (.free ssl)
                pure none
            | some ptr => pure (some ⟨ptr, none, some ssl, true⟩)

/-- What is left to do where `SSL_read` or `SSL_write` failed; the result says whether `errno` is
`EAGAIN`. -/
def ioFailed (ssl : ℕ) (ret : ℤ) : SslProg Bool := do
  let err ← sslCall (.getError ssl ret)
  if err = 2 ∨ err = 3 then pure true
  else do
    sslCall .errPrintErrors
    pure false

/-- `ssl_read`: the result, what is in the buffer, and whether `errno` is set to `EAGAIN`. -/
def sslRead (c : SslContext) (len : ℕ) : SslProg (ℤ × Bytes × Bool) := do
  match c.ssl with
  | none => pure (-1, [], false)
  | some ssl => do
      let (n, buf) ← sslCall (.read ssl (intLength len))
      if n < 0 then do
        let again ← ioFailed ssl n
        pure (-1, buf, again)
      else pure (n, buf, false)

/-- `ssl_write`. -/
def sslWrite (c : SslContext) (buf : Bytes) : SslProg (ℤ × Bool) := do
  match c.ssl with
  | none => pure (-1, false)
  | some ssl => do
      let n ← sslCall (.write ssl buf (intLength buf.length))
      if n < 0 then do
        let again ← ioFailed ssl n
        pure (-1, again)
      else pure (n, false)

/-- `ssl_get_peer_cert_info`: the result and the text. -/
def sslGetPeerCertInfo (c : SslContext) (bufSize : ℕ) : SslProg (ℤ × Bytes) := do
  match c.ssl with
  | none => pure (-1, [])
  | some ssl => do
      match ← sslCall (.getPeerCertificate ssl) with
      | none => pure (-1, snprintf bufSize (ascii "No certificate"))
      | some cert => do
          let subject ← sslCall (.subjectOneline cert)
          let issuer ← sslCall (.issuerOneline cert)
          sslCall (.x509Free cert)
          pure (0, snprintf bufSize (ascii "Subject: " ++ subject ++ ascii ", Issuer: " ++ issuer))

/-- `ssl_get_cipher_info`. -/
def sslGetCipherInfo (c : SslContext) : SslProg Bytes :=
  match c.ssl with
  | none => pure (ascii "None")
  | some ssl => sslCall (.getCipher ssl)

/-- An object is freed by the call, where there is one. -/
def freeIf (f : ℕ → SslCall) : Option ℕ → SslProg Unit
  | none => pure ()
  | some p => do
      let _ ← sslCall (f p)
      pure ()

/-- `ssl_shutdown`. -/
def sslShutdown (c : SslContext) : SslProg Unit := do
  freeIf .shutdown c.ssl
  freeIf .free c.ssl
  if c.isServer then pure () else freeIf .ctxFree c.ctx
  sslCall (.freeWrapper c.ptr)

/-- `ssl_cleanup`, with the new `g_server_ssl_ctx`. -/
def sslCleanup (enableSsl : ℤ) (gServerSslCtx : Option ℕ) : SslProg (Option ℕ) :=
  if enableSsl = 0 then pure gServerSslCtx
  else do
    sslCall .lock
    freeIf .ctxFree gServerSslCtx
    sslCall .unlock
    sslCall .evpCleanup
    sslCall .errFreeStrings
    pure none

/-! ### The certificate -/

/-- The variables of `ssl_generate_self_signed_cert` that are freed at its end. -/
structure CertObjects where
  fp : Option ℕ
  x509 : Option ℕ
  pkey : Option ℕ
  rsa : Option ℕ
  bn : Option ℕ

def CertObjects.owns (o : CertObjects) : Multiset Object :=
  object .bn o.bn + object .rsa o.rsa + object .pkey o.pkey + object .x509 o.x509 +
    object .file o.fp

/-- What comes after the label `cleanup`. -/
def certCleanup (o : CertObjects) (ret : ℤ) : SslProg ℤ := do
  freeIf .fclose o.fp
  freeIf .x509Free o.x509
  freeIf .pkeyFree o.pkey
  freeIf .rsaFree o.rsa
  freeIf .bnFree o.bn
  pure ret

/-- The fields of the certificate, which is valid for a year and issued by itself. -/
def certFields (x509 : ℕ) (pkey : Option ℕ) : List SslCall :=
  [.x509SetVersion x509 2, .x509SetSerialNumber x509 1, .x509SetNotBefore x509 0,
    .x509SetNotAfter x509 (365 * 24 * 60 * 60), .x509SetPubkey x509 pkey,
    .x509AddEntry x509 (ascii "C") (ascii "US"), .x509AddEntry x509 (ascii "O") (ascii "ProxyMax"),
    .x509AddEntry x509 (ascii "CN") (ascii "localhost"), .x509SetIssuerName x509]

/-- The calls of a list, one after another. -/
def callAll : List SslCall → SslProg Unit
  | [] => pure ()
  | c :: cs => do
      let _ ← sslCall c
      callAll cs

/-- The writing of the two files. -/
def writeFiles (certFile keyFile : Bytes) (x509 : ℕ) (o : CertObjects) : SslProg ℤ := do
  match ← sslCall (.fopen keyFile) with
  | none => certCleanup o (-1)
  | some fp => do
      let keyWritten ← sslCall (.pemWritePrivateKey fp o.pkey)
      if keyWritten = 0 then certCleanup { o with fp := some fp } (-1)
      else do
        sslCall (.fclose fp)
        match ← sslCall (.fopen certFile) with
        | none => certCleanup o (-1)
        | some fp => do
            let certWritten ← sslCall (.pemWriteX509 fp x509)
            if certWritten = 0 then certCleanup { o with fp := some fp } (-1)
            else certCleanup { o with fp := some fp } 0

/-- The certificate for the key `pkey`. -/
def signCert (certFile keyFile : Bytes) (o : CertObjects) : SslProg ℤ := do
  match ← sslCall .x509New with
  | none => certCleanup o (-1)
  | some x509 => do
      let o := { o with x509 := some x509 }
      callAll (certFields x509 o.pkey)
      let signed ← sslCall (.x509Sign x509 o.pkey)
      if signed = 0 then certCleanup o (-1) else writeFiles certFile keyFile x509 o

/-- The key of the certificate, which gets the RSA key. -/
def keyCert (certFile keyFile : Bytes) (rsa bn : ℕ) : SslProg ℤ := do
  let pkey ← sslCall .pkeyNew
  let assigned ← sslCall (.pkeyAssignRsa pkey rsa)
  if assigned = 0 then certCleanup ⟨none, none, pkey, some rsa, some bn⟩ (-1)
  else signCert certFile keyFile ⟨none, none, pkey, none, some bn⟩

/-- `ssl_generate_self_signed_cert`; 65537 is `RSA_F4`. The pointers of `RSA_new` and `BN_new`
are not checked. -/
def sslGenerateSelfSignedCert (certFile keyFile : Bytes) : SslProg ℤ := do
  let rsa ← sslCall .rsaNew
  let bn ← sslCall .bnNew
  match bn with
  | none => .raise .nullPointer
  | some bn => do
      let wordSet ← sslCall (.bnSetWord bn 65537)
      if wordSet = 0 then certCleanup ⟨none, none, none, rsa, some bn⟩ (-1)
      else
        match rsa with
        | none => .raise .nullPointer
        | some rsa => do
            let generated ← sslCall (.rsaGenerateKey rsa 2048 bn)
            if generated = 0 then certCleanup ⟨none, none, none, some rsa, some bn⟩ (-1)
            else keyCert certFile keyFile rsa bn

end ProxyMax.Ssl
