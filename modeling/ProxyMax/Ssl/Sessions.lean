import ProxyMax.Ssl.Objects

/-!
The objects of `src/protocols/ssl.c`, and who frees them.

* `owns_sslGenerateSelfSignedCert`, `owns_sslCreateServerContext`,
  `owns_sslCreateClientContext`, `owns_sslAcceptConnection`, `owns_sslShutdown`: what each
  function makes and leaves.
* `SslState`, `sslStep`, `sslRun`: the functions in any order, on the contexts in use.
* `ssl_objects`: in every run every object is used while it is there and freed once, and the
  mutex is released.
-/

namespace ProxyMax.Ssl

open CString Interaction Ownership

/-! ### Who frees what -/

section Functions

variable {env : List (Event SslAnswer) → (c : SslCall) → SslAnswer c → Prop}

/-- An object is freed, where there is one. -/
lemma owns_freeIf {f : ℕ → SslCall} {kind : ℕ → Object} (hneeds : ∀ p, needs (f p) = {kind p})
    (hgives : ∀ p r, gives (f p) r = {kind p}) (hgains : ∀ p r, gains (f p) r = 0)
    (P : Multiset Object) (p : Option ℕ) :
    Owns sslLedger env (freeIf f p) (P + object kind p) fun _ => P := by
  cases p with
  | none => exact owns_ret (add_zero P)
  | some p =>
      have hobject : object kind (some p) = sslLedger.needs (f p) := (hneeds p).symm
      rw [hobject]
      exact owns_release (fun r => (hgives p r).trans (hneeds p).symm) (hgains p)
        fun _ _ _ => owns_ret rfl

/-- All objects of the certificate are freed. -/
lemma owns_certCleanup (o : CertObjects) (ret : ℤ) :
    Owns sslLedger env (certCleanup o ret) o.owns fun _ => 0 := by
  simp only [certCleanup, bind_eq, pure_eq]
  refine owns_bind (owns_freeIf (fun _ => rfl) (fun _ _ => rfl) (fun _ _ => rfl) _ _) fun _ => ?_
  refine owns_bind (owns_freeIf (fun _ => rfl) (fun _ _ => rfl) (fun _ _ => rfl) _ _) fun _ => ?_
  refine owns_bind (owns_freeIf (fun _ => rfl) (fun _ _ => rfl) (fun _ _ => rfl) _ _) fun _ => ?_
  refine owns_bind (owns_freeIf (fun _ => rfl) (fun _ _ => rfl) (fun _ _ => rfl) _ _) fun _ => ?_
  rw [← zero_add (object .bn o.bn)]
  exact owns_bind (owns_freeIf (fun _ => rfl) (fun _ _ => rfl) (fun _ _ => rfl) _ _)
    fun _ => owns_ret rfl

/-- Calls that only use what is in hand. -/
lemma owns_callAll {P : Multiset Object} {cs : List SslCall}
    (hcs : ∀ c ∈ cs, needs c ≤ P ∧ (∀ r, gives c r = 0) ∧ ∀ r, gains c r = 0) :
    Owns sslLedger env (callAll cs) P fun _ => P := by
  induction cs with
  | nil => exact owns_ret rfl
  | cons c cs ih =>
      obtain ⟨hneeds, hgives, hgains⟩ := hcs c (by simp)
      exact owns_use hneeds hgives hgains fun _ _ _ => ih fun c' hc' => hcs c' (by simp [hc'])

lemma x509_le {o : CertObjects} {x509 : ℕ} (h : o.x509 = some x509) :
    object .pkey o.pkey + {.x509 x509} ≤ o.owns := by
  rw [CertObjects.owns, h, add_assoc (object .bn o.bn + object .rsa o.rsa)]
  exact (Multiset.le_add_left ..).trans (Multiset.le_add_right ..)

lemma owns_writeFiles (certFile keyFile : Bytes) {x509 : ℕ} {o : CertObjects} (hfp : o.fp = none)
    (hx509 : o.x509 = some x509) :
    Owns sslLedger env (writeFiles certFile keyFile x509 o) o.owns fun _ => 0 := by
  have hopen : ∀ fp, o.owns + {.file fp} = ({ o with fp := some fp } : CertObjects).owns := by
    intro fp
    rw [CertObjects.owns, hfp, CertObjects.owns]
    change _ + 0 + _ = _
    rw [add_zero]
    rfl
  simp only [writeFiles, bind_eq]
  refine owns_acquire zero_le (fun _ => rfl) fun _ fp _ => ?_
  cases fp with
  | none =>
      change Owns sslLedger env _ (o.owns + 0) _
      rw [add_zero]
      exact owns_certCleanup o (-1)
  | some fp =>
      change Owns sslLedger env _ (o.owns + {.file fp}) _
      have hkey : object .pkey o.pkey + {.file fp} ≤ o.owns + {.file fp} :=
        add_le_add_left ((Multiset.le_add_right ..).trans (x509_le hx509)) _
      refine owns_use hkey (fun _ => rfl) (fun _ => rfl) fun _ keyWritten _ => ?_
      split
      · rw [hopen]
        exact owns_certCleanup _ (-1)
      · refine owns_release (c := SslCall.fclose fp) (fun _ => rfl) (fun _ => rfl) fun _ _ _ => ?_
        refine owns_acquire zero_le (fun _ => rfl) fun _ fp' _ => ?_
        cases fp' with
        | none =>
            change Owns sslLedger env _ (o.owns + 0) _
            rw [add_zero]
            exact owns_certCleanup o (-1)
        | some fp' =>
            change Owns sslLedger env _ (o.owns + {.file fp'}) _
            have hcert : {.x509 x509} + {.file fp'} ≤ o.owns + {.file fp'} :=
              add_le_add_left ((Multiset.le_add_left ..).trans (x509_le hx509)) _
            refine owns_use hcert (fun _ => rfl) (fun _ => rfl) fun _ certWritten _ => ?_
            rw [hopen]
            split
            · exact owns_certCleanup _ (-1)
            · exact owns_certCleanup _ 0

lemma owns_signCert (certFile keyFile : Bytes) {o : CertObjects} (hfp : o.fp = none)
    (hx509 : o.x509 = none) :
    Owns sslLedger env (signCert certFile keyFile o) o.owns fun _ => 0 := by
  simp only [signCert, bind_eq]
  refine owns_acquire zero_le (fun _ => rfl) fun _ x509 _ => ?_
  cases x509 with
  | none =>
      change Owns sslLedger env _ (o.owns + 0) _
      rw [add_zero]
      exact owns_certCleanup o (-1)
  | some x509 =>
      have hcert : o.owns + {.x509 x509} = ({ o with x509 := some x509 } : CertObjects).owns := by
        rw [CertObjects.owns, hfp, hx509, CertObjects.owns]
        change _ + 0 + 0 + _ = _ + _ + 0
        rw [add_zero, add_zero, add_zero]
        rfl
      change Owns sslLedger env _ (o.owns + {.x509 x509}) _
      rw [hcert]
      have hboth := x509_le (o := { o with x509 := some x509 }) rfl
      have hx : {.x509 x509} ≤ ({ o with x509 := some x509 } : CertObjects).owns :=
        (Multiset.le_add_left ..).trans hboth
      refine owns_bind (owns_callAll ?_) fun _ => ?_
      · simp only [certFields, List.forall_mem_cons]
        exact ⟨⟨hx, fun _ => rfl, fun _ => rfl⟩, ⟨hx, fun _ => rfl, fun _ => rfl⟩,
          ⟨hx, fun _ => rfl, fun _ => rfl⟩, ⟨hx, fun _ => rfl, fun _ => rfl⟩,
          ⟨hboth, fun _ => rfl, fun _ => rfl⟩, ⟨hx, fun _ => rfl, fun _ => rfl⟩,
          ⟨hx, fun _ => rfl, fun _ => rfl⟩, ⟨hx, fun _ => rfl, fun _ => rfl⟩,
          ⟨hx, fun _ => rfl, fun _ => rfl⟩, by simp⟩
      · refine owns_use hboth (fun _ => rfl) (fun _ => rfl) fun _ signed _ => ?_
        split
        · exact owns_certCleanup _ (-1)
        · exact owns_writeFiles certFile keyFile hfp rfl

lemma owns_keyCert (certFile keyFile : Bytes) (rsa bn : ℕ) :
    Owns sslLedger env (keyCert certFile keyFile rsa bn) ({.bn bn} + {.rsa rsa}) fun _ => 0 := by
  simp only [keyCert, bind_eq]
  refine owns_acquire zero_le (fun _ => rfl) fun _ pkey _ => ?_
  have hall : {.bn bn} + object .pkey pkey + {.rsa rsa} =
      (⟨none, none, pkey, some rsa, some bn⟩ : CertObjects).owns := by
    change _ = {.bn bn} + {.rsa rsa} + object .pkey pkey + 0 + 0
    rw [add_zero, add_zero, add_right_comm]
  have hmoved : {.bn bn} + object .pkey pkey =
      (⟨none, none, pkey, none, some bn⟩ : CertObjects).owns := by
    change _ = {.bn bn} + 0 + object .pkey pkey + 0 + 0
    rw [add_zero, add_zero, add_zero]
  change Owns sslLedger env _ ({.bn bn} + {.rsa rsa} + object .pkey pkey) _
  rw [add_right_comm]
  refine owns_call (add_le_add_left (Multiset.le_add_left ..) _) fun _ assigned _ => ?_
  change Owns sslLedger env _ (_ - (if assigned = 0 then 0 else {.rsa rsa}) + 0) _
  rw [add_zero]
  split
  · rw [tsub_zero, hall]
    exact owns_certCleanup _ (-1)
  · -- the RSA key belongs to `pkey` now
    rw [add_tsub_cancel_right, hmoved]
    exact owns_signCert certFile keyFile rfl rfl

/-- **The certificate.** Whatever fails, all objects that were made are freed: the RSA key with
the key that it was assigned to, or alone. -/
lemma owns_sslGenerateSelfSignedCert (certFile keyFile : Bytes) :
    Owns sslLedger env (sslGenerateSelfSignedCert certFile keyFile) 0 fun _ => 0 := by
  simp only [sslGenerateSelfSignedCert, bind_eq]
  refine owns_acquire zero_le (fun _ => rfl) fun _ rsa _ => ?_
  refine owns_acquire zero_le (fun _ => rfl) fun _ bn _ => ?_
  cases bn with
  | none => exact owns_raise
  | some bn =>
      have hstart : ∀ rsa, {.bn bn} + object .rsa rsa =
          (⟨none, none, none, rsa, some bn⟩ : CertObjects).owns := by
        intro rsa
        change _ = {.bn bn} + object .rsa rsa + 0 + 0 + 0
        rw [add_zero, add_zero, add_zero]
      change Owns sslLedger env _ (0 + object .rsa rsa + {.bn bn}) _
      rw [zero_add, add_comm]
      refine owns_use (Multiset.le_add_right ..) (fun _ => rfl) (fun _ => rfl) fun _ wordSet _ => ?_
      split
      · rw [hstart]
        exact owns_certCleanup _ (-1)
      cases rsa with
      | none => exact owns_raise
      | some rsa =>
          refine owns_use le_rfl (fun _ => rfl) (fun _ => rfl) fun _ generated _ => ?_
          split
          · rw [hstart]
            exact owns_certCleanup _ (-1)
          · exact owns_keyCert certFile keyFile rsa bn

lemma owns_serverContextFailed (ctx : ℕ) :
    Owns sslLedger env (serverContextFailed ctx) ({.mutex} + {.ctx ctx})
      fun x => object .ctx x.2 := by
  simp only [serverContextFailed, bind_eq, pure_eq]
  refine owns_use zero_le (fun _ => rfl) (fun _ => rfl) fun _ _ _ => ?_
  refine owns_release (c := SslCall.ctxFree ctx) (fun _ => rfl) (fun _ => rfl) fun _ _ _ => ?_
  rw [← zero_add ({.mutex} : Multiset Object)]
  exact owns_release (c := SslCall.unlock) (fun _ => rfl) (fun _ => rfl) fun _ _ _ => owns_ret rfl

/-- The context that is returned is there, and nothing else. -/
lemma owns_sslCreateServerContext (certFile keyFile : Bytes) :
    Owns sslLedger env (sslCreateServerContext certFile keyFile) 0 fun x => object .ctx x.2 := by
  simp only [sslCreateServerContext, bind_eq, pure_eq]
  refine owns_acquire zero_le (fun _ => rfl) fun _ _ _ => ?_
  change Owns sslLedger env _ (0 + {.mutex}) _
  refine owns_acquire zero_le (fun _ => rfl) fun _ ctx _ => ?_
  cases ctx with
  | none =>
      change Owns sslLedger env _ (0 + {.mutex} + 0) _
      rw [add_zero]
      refine owns_use zero_le (fun _ => rfl) (fun _ => rfl) fun _ _ _ => ?_
      exact owns_release (c := SslCall.unlock) (fun _ => rfl) (fun _ => rfl)
        fun _ _ _ => owns_ret rfl
  | some ctx =>
      change Owns sslLedger env _ (0 + {.mutex} + {.ctx ctx}) _
      rw [zero_add]
      have hctx : ({.ctx ctx} : Multiset Object) ≤ {.mutex} + {.ctx ctx} :=
        Multiset.le_add_left ..
      refine owns_use hctx (fun _ => rfl) (fun _ => rfl) fun _ _ _ => ?_
      refine owns_use hctx (fun _ => rfl) (fun _ => rfl) fun _ certLoaded _ => ?_
      split
      · exact owns_serverContextFailed ctx
      refine owns_use hctx (fun _ => rfl) (fun _ => rfl) fun _ keyLoaded _ => ?_
      split
      · exact owns_serverContextFailed ctx
      refine owns_use hctx (fun _ => rfl) (fun _ => rfl) fun _ keyMatches _ => ?_
      split
      · exact owns_serverContextFailed ctx
      refine owns_use hctx (fun _ => rfl) (fun _ => rfl) fun _ _ _ => ?_
      rw [add_comm]
      exact owns_release (c := SslCall.unlock) (fun _ => rfl) (fun _ => rfl)
        fun _ _ _ => owns_ret rfl

/-- A pair of objects is freed, the inner one first. -/
lemma owns_freeBoth {α : Type} {a : α} {ctx ssl : ℕ} {Q : α → Multiset Object} (hQ : 0 = Q a) :
    Owns sslLedger env
      ((sslCall (.free ssl)).bind fun _ => (sslCall (.ctxFree ctx)).bind fun _ => .ret a)
      ({.ctx ctx} + {.ssl ssl}) Q := by
  refine owns_release (c := SslCall.free ssl) (fun _ => rfl) (fun _ => rfl) fun _ _ _ => ?_
  rw [← zero_add ({.ctx ctx} : Multiset Object)]
  exact owns_release (c := SslCall.ctxFree ctx) (fun _ => rfl) (fun _ => rfl)
    fun _ _ _ => owns_ret hQ

/-- **A client's context** has all that was made for it. -/
lemma owns_sslCreateClientContext (sockfd : ℤ) :
    Owns sslLedger env (sslCreateClientContext sockfd) 0
      fun c => c.elim 0 SslContext.owns := by
  simp only [sslCreateClientContext, bind_eq, pure_eq]
  refine owns_acquire zero_le (fun _ => rfl) fun _ ctx _ => ?_
  cases ctx with
  | none => exact owns_use zero_le (fun _ => rfl) (fun _ => rfl) fun _ _ _ => owns_ret rfl
  | some ctx =>
      change Owns sslLedger env _ (0 + {.ctx ctx}) _
      rw [zero_add]
      refine owns_use le_rfl (fun _ => rfl) (fun _ => rfl) fun _ _ _ => ?_
      refine owns_use le_rfl (fun _ => rfl) (fun _ => rfl) fun _ _ _ => ?_
      refine owns_acquire le_rfl (fun _ => rfl) fun _ ssl _ => ?_
      cases ssl with
      | none =>
          change Owns sslLedger env _ ({.ctx ctx} + 0) _
          rw [add_comm]
          refine owns_use zero_le (fun _ => rfl) (fun _ => rfl) fun _ _ _ => ?_
          exact owns_release (c := SslCall.ctxFree ctx) (fun _ => rfl) (fun _ => rfl)
            fun _ _ _ => owns_ret rfl
      | some ssl =>
          change Owns sslLedger env _ ({.ctx ctx} + {.ssl ssl}) _
          have hssl : ({.ssl ssl} : Multiset Object) ≤ {.ctx ctx} + {.ssl ssl} :=
            Multiset.le_add_left ..
          refine owns_use hssl (fun _ => rfl) (fun _ => rfl) fun _ _ _ => ?_
          refine owns_use hssl (fun _ => rfl) (fun _ => rfl) fun _ connected _ => ?_
          split
          · exact owns_use zero_le (fun _ => rfl) (fun _ => rfl) fun _ _ _ => owns_freeBoth rfl
          · refine owns_acquire zero_le (fun _ => rfl) fun _ p _ => ?_
            cases p with
            | none =>
                change Owns sslLedger env _ ({.ctx ctx} + {.ssl ssl} + 0) _
                rw [add_zero]
                exact owns_freeBoth rfl
            | some p =>
                refine owns_ret ?_
                change ({.ctx ctx} + {.ssl ssl} + {.wrapper p} : Multiset Object) =
                  {.wrapper p} + {.ctx ctx} + {.ssl ssl}
                rw [add_comm, add_assoc]

/-- **A server's context** has all that was made for it, and not the context of the server. -/
lemma owns_sslAcceptConnection (gServerSslCtx : Option ℕ) (sockfd : ℤ) :
    Owns sslLedger env (sslAcceptConnection gServerSslCtx sockfd) (object .ctx gServerSslCtx)
      fun c => object .ctx gServerSslCtx + c.elim 0 SslContext.owns := by
  cases gServerSslCtx with
  | none => exact owns_ret rfl
  | some ctx =>
      simp only [sslAcceptConnection, bind_eq, pure_eq]
      have hctx : ({.ctx ctx} : Multiset Object) ≤ {.ctx ctx} + {.mutex} :=
        Multiset.le_add_right ..
      refine owns_acquire zero_le (fun _ => rfl) fun _ _ _ => ?_
      refine owns_acquire hctx (fun _ => rfl) fun _ ssl _ => ?_
      cases ssl with
      | none =>
          change Owns sslLedger env _ ({.ctx ctx} + {.mutex} + 0) _
          rw [add_zero]
          refine owns_use zero_le (fun _ => rfl) (fun _ => rfl) fun _ _ _ => ?_
          exact owns_release (c := SslCall.unlock) (fun _ => rfl) (fun _ => rfl)
            fun _ _ _ => owns_ret (add_zero _).symm
      -- the session is made, and freed again where the handshake or the wrapper fails
      | some ssl =>
          change Owns sslLedger env _ ({.ctx ctx} + {.mutex} + {.ssl ssl}) _
          rw [add_right_comm]
          refine owns_release (c := SslCall.unlock) (fun _ => rfl) (fun _ => rfl) fun _ _ _ => ?_
          have hssl : ({.ssl ssl} : Multiset Object) ≤ {.ctx ctx} + {.ssl ssl} :=
            Multiset.le_add_left ..
          refine owns_use hssl (fun _ => rfl) (fun _ => rfl) fun _ _ _ => ?_
          refine owns_use hssl (fun _ => rfl) (fun _ => rfl) fun _ accepted _ => ?_
          split
          · refine owns_use zero_le (fun _ => rfl) (fun _ => rfl) fun _ _ _ => ?_
            exact owns_release (c := SslCall.free ssl) (fun _ => rfl) (fun _ => rfl)
              fun _ _ _ => owns_ret (add_zero _).symm
          · refine owns_acquire zero_le (fun _ => rfl) fun _ p _ => ?_
            cases p with
            | none =>
                change Owns sslLedger env _ ({.ctx ctx} + {.ssl ssl} + 0) _
                rw [add_zero]
                exact owns_release (c := SslCall.free ssl) (fun _ => rfl) (fun _ => rfl)
                  fun _ _ _ => owns_ret (add_zero _).symm
            | some p =>
                refine owns_ret ?_
                change ({.ctx ctx} + {.ssl ssl} + {.wrapper p} : Multiset Object) =
                  {.ctx ctx} + ({.wrapper p} + 0 + {.ssl ssl})
                rw [add_zero, add_assoc, add_comm {Object.ssl ssl}]

/-- A context that is shut down is freed, with all that it has. -/
lemma owns_sslShutdown (c : SslContext) :
    Owns sslLedger env (sslShutdown c) c.owns fun _ => 0 := by
  have hquiet : Owns sslLedger env (freeIf .shutdown c.ssl) c.owns fun _ => c.owns := by
    rw [SslContext.owns]
    cases c.ssl with
    | none => exact owns_ret rfl
    | some ssl =>
        exact owns_use (c := SslCall.shutdown ssl) (Multiset.le_add_left ..) (fun _ => rfl)
          (fun _ => rfl) fun _ _ _ => owns_ret rfl
  have hfinal : Owns sslLedger env (sslCall (.freeWrapper c.ptr)) {.wrapper c.ptr} fun _ => 0 := by
    rw [← zero_add ({.wrapper c.ptr} : Multiset Object)]
    exact owns_release (c := SslCall.freeWrapper c.ptr) (f := .ret) (fun _ => rfl) (fun _ => rfl)
      fun _ _ _ => owns_ret rfl
  simp only [sslShutdown, bind_eq]
  refine owns_bind hquiet fun _ => ?_
  rw [SslContext.owns]
  refine owns_bind (owns_freeIf (fun _ => rfl) (fun _ _ => rfl) (fun _ _ => rfl) _ _) fun _ => ?_
  split
  · rw [add_zero]
    exact hfinal
  · exact owns_bind (owns_freeIf (fun _ => rfl) (fun _ _ => rfl) (fun _ _ => rfl) _ _)
      fun _ => hfinal

/-- What is done after a failure uses the context only. -/
lemma owns_ioFailed {P : Multiset Object} {ssl : ℕ} (hssl : {.ssl ssl} ≤ P) (ret : ℤ) :
    Owns sslLedger env (ioFailed ssl ret) P fun _ => P := by
  simp only [ioFailed, bind_eq, pure_eq]
  refine owns_use hssl (fun _ => rfl) (fun _ => rfl) fun _ err _ => ?_
  split
  · exact owns_ret rfl
  · exact owns_use zero_le (fun _ => rfl) (fun _ => rfl) fun _ _ _ => owns_ret rfl

lemma owns_sslRead (c : SslContext) (len : ℕ) :
    Owns sslLedger env (sslRead c len) c.owns fun _ => c.owns := by
  rw [sslRead, SslContext.owns]
  cases c.ssl with
  | none => exact owns_ret rfl
  | some ssl =>
      refine owns_use (c := SslCall.read ssl _) (Multiset.le_add_left ..) (fun _ => rfl)
        (fun _ => rfl) fun _ x _ => ?_
      dsimp only
      split
      · exact owns_bind (owns_ioFailed (Multiset.le_add_left ..) _) fun _ => owns_ret rfl
      · exact owns_ret rfl

lemma owns_sslWrite (c : SslContext) (buf : Bytes) :
    Owns sslLedger env (sslWrite c buf) c.owns fun _ => c.owns := by
  rw [sslWrite, SslContext.owns]
  cases c.ssl with
  | none => exact owns_ret rfl
  | some ssl =>
      refine owns_use (c := SslCall.write ssl buf _) (Multiset.le_add_left ..) (fun _ => rfl)
        (fun _ => rfl) fun _ n _ => ?_
      split
      · exact owns_bind (owns_ioFailed (Multiset.le_add_left ..) _) fun _ => owns_ret rfl
      · exact owns_ret rfl

/-- The certificate of the peer is freed once its names are read. -/
lemma owns_sslGetPeerCertInfo (c : SslContext) (bufSize : ℕ) :
    Owns sslLedger env (sslGetPeerCertInfo c bufSize) c.owns fun _ => c.owns := by
  rw [sslGetPeerCertInfo, SslContext.owns]
  cases c.ssl with
  | none => exact owns_ret rfl
  | some ssl =>
      refine owns_acquire (c := SslCall.getPeerCertificate ssl) (Multiset.le_add_left ..)
        (fun _ => rfl) fun _ cert _ => ?_
      cases cert with
      | none => exact owns_ret (add_zero _)
      | some cert =>
          refine owns_use (c := SslCall.subjectOneline cert) (Multiset.le_add_left ..)
            (fun _ => rfl) (fun _ => rfl) fun _ subject _ => ?_
          refine owns_use (c := SslCall.issuerOneline cert) (Multiset.le_add_left ..)
            (fun _ => rfl) (fun _ => rfl) fun _ issuer _ => ?_
          exact owns_release (c := SslCall.x509Free cert) (fun _ => rfl) (fun _ => rfl)
            fun _ _ _ => owns_ret rfl

lemma owns_sslGetCipherInfo (c : SslContext) :
    Owns sslLedger env (sslGetCipherInfo c) c.owns fun _ => c.owns := by
  rw [sslGetCipherInfo, SslContext.owns]
  cases c.ssl with
  | none => exact owns_ret rfl
  | some ssl =>
      exact owns_use (c := SslCall.getCipher ssl) (f := .ret) (Multiset.le_add_left ..)
        (fun _ => rfl) (fun _ => rfl) fun _ _ _ => owns_ret rfl

/-- The context of the server is freed, unless TLS is off. -/
lemma owns_sslCleanup (enableSsl : ℤ) (gServerSslCtx : Option ℕ) :
    Owns sslLedger env (sslCleanup enableSsl gServerSslCtx) (object .ctx gServerSslCtx)
      fun g => object .ctx g := by
  rw [sslCleanup]
  split
  · exact owns_ret rfl
  · simp only [bind_eq, pure_eq]
    refine owns_acquire zero_le (fun _ => rfl) fun _ _ _ => ?_
    change Owns sslLedger env _ (_ + {.mutex}) _
    rw [add_comm]
    refine owns_bind (owns_freeIf (fun _ => rfl) (fun _ _ => rfl) (fun _ _ => rfl) _ _) fun _ => ?_
    rw [← zero_add ({.mutex} : Multiset Object)]
    refine owns_release (c := SslCall.unlock) (fun _ => rfl) (fun _ => rfl) fun _ _ _ => ?_
    refine owns_use zero_le (fun _ => rfl) (fun _ => rfl) fun _ _ _ => ?_
    exact owns_use zero_le (fun _ => rfl) (fun _ => rfl) fun _ _ _ => owns_ret rfl

end Functions

/-! ### Runs of the functions -/

/-- A call of one of the functions. The contexts in use are numbered by their places. -/
inductive SslOp where
  | createServerContext (certFile keyFile : Bytes)
  | createClientContext (sockfd : ℤ)
  | acceptConnection (sockfd : ℤ)
  | read (i len : ℕ)
  | write (i : ℕ) (buf : Bytes)
  | getPeerCertInfo (i bufSize : ℕ)
  | getCipherInfo (i : ℕ)
  | shutdown (i : ℕ)
  | generateSelfSignedCert (certFile keyFile : Bytes)
  | cleanup

/-- `g_server_ssl_ctx`, the contexts in use, and the server contexts that were overwritten. -/
structure SslState where
  gServerSslCtx : Option ℕ
  contexts : List SslContext
  overwritten : List ℕ

/-- What the state keeps. -/
def SslState.owns (s : SslState) : Multiset Object :=
  (s.overwritten.map Object.ctx : List Object) + object .ctx s.gServerSslCtx +
    (s.contexts.map SslContext.owns).sum

/-- A function that is called with a context in use. -/
def withContext {α : Type} (s : SslState) (i : ℕ) (f : SslContext → SslProg α) :
    SslProg SslState :=
  match s.contexts[i]? with
  | none => pure s
  | some c => do
      let _ ← f c
      pure s

/-- A new context, where there is one. -/
def SslState.add (s : SslState) (c : Option SslContext) : SslState :=
  { s with contexts := c.toList ++ s.contexts }

/-- A call. -/
def sslStep (enableSsl : ℤ) (s : SslState) : SslOp → SslProg SslState
  | .createServerContext certFile keyFile => do
      let (_, gServerSslCtx) ← sslCreateServerContext certFile keyFile
      pure { s with gServerSslCtx, overwritten := s.gServerSslCtx.toList ++ s.overwritten }
  | .createClientContext sockfd => do
      let c ← sslCreateClientContext sockfd
      pure (s.add c)
  | .acceptConnection sockfd => do
      let c ← sslAcceptConnection s.gServerSslCtx sockfd
      pure (s.add c)
  | .read i len => withContext s i fun c => sslRead c len
  | .write i buf => withContext s i fun c => sslWrite c buf
  | .getPeerCertInfo i bufSize => withContext s i fun c => sslGetPeerCertInfo c bufSize
  | .getCipherInfo i => withContext s i sslGetCipherInfo
  | .shutdown i =>
      match s.contexts[i]? with
      | none => pure s
      | some c => do
          sslShutdown c
          pure { s with contexts := s.contexts.eraseIdx i }
  | .generateSelfSignedCert certFile keyFile => do
      let _ ← sslGenerateSelfSignedCert certFile keyFile
      pure s
  | .cleanup => do
      let gServerSslCtx ← sslCleanup enableSsl s.gServerSslCtx
      pure { s with gServerSslCtx }

/-- The calls, one after another. -/
def sslRun (enableSsl : ℤ) : List SslOp → SslState → SslProg SslState
  | [], s => pure s
  | op :: ops, s => do
      let s ← sslStep enableSsl s op
      sslRun enableSsl ops s

lemma coe_map_toList (p : Option ℕ) (l : List ℕ) :
    (((p.toList ++ l).map Object.ctx : List Object) : Multiset Object) =
      object .ctx p + (l.map Object.ctx : List Object) := by
  cases p with
  | none => exact (zero_add _).symm
  | some p =>
      rw [Option.toList_some, List.singleton_append, List.map_cons, ← Multiset.cons_coe,
        ← Multiset.singleton_add]
      rfl

lemma add_owns (s : SslState) (c : Option SslContext) :
    (s.add c).owns = s.owns + c.elim 0 SslContext.owns := by
  cases c with
  | none => exact (add_zero _).symm
  | some c =>
      simp only [SslState.add, SslState.owns, Option.toList_some, List.singleton_append,
        List.map_cons, List.sum_cons, Option.elim_some]
      rw [add_comm c.owns]
      simp only [add_assoc]

/-- A context in use is a part of what the state keeps. -/
lemma owns_context {s : SslState} {i : ℕ} {c : SslContext} (hc : s.contexts[i]? = some c) :
    s.owns = ({ s with contexts := s.contexts.eraseIdx i } : SslState).owns + c.owns := by
  obtain ⟨hi, rfl⟩ := List.getElem?_eq_some_iff.mp hc
  have hperm := (List.getElem_cons_eraseIdx_perm hi).map SslContext.owns
  have hsum := hperm.sum_eq
  rw [List.map_cons, List.sum_cons, add_comm] at hsum
  rw [SslState.owns, SslState.owns, ← hsum]
  simp only [add_assoc]

section Runs

variable {env : List (Event SslAnswer) → (c : SslCall) → SslAnswer c → Prop}

/-- A function that only uses its context leaves the state as it was. -/
lemma owns_withContext {α : Type} (s : SslState) (i : ℕ) {f : SslContext → SslProg α}
    (hf : ∀ c, Owns sslLedger env (f c) c.owns fun _ => c.owns) :
    Owns sslLedger env (withContext s i f) s.owns SslState.owns := by
  rw [withContext]
  split
  · exact owns_ret rfl
  · rename_i c hc
    have hframe := owns_frame (hf c)
      ({ s with contexts := s.contexts.eraseIdx i } : SslState).owns
    rw [← owns_context hc] at hframe
    exact owns_bind hframe fun _ => owns_ret rfl

/-- **The step lemma.** -/
lemma owns_sslStep (enableSsl : ℤ) (s : SslState) (op : SslOp) :
    Owns sslLedger env (sslStep enableSsl s op) s.owns SslState.owns := by
  have hserver : s.owns = (s.overwritten.map Object.ctx : List Object) +
      (s.contexts.map SslContext.owns).sum + object .ctx s.gServerSslCtx := add_right_comm _ _ _
  -- the contexts that are made are added to those in use
  cases op with
  | createServerContext certFile keyFile =>
      have hframe := owns_frame (@owns_sslCreateServerContext env certFile keyFile) s.owns
      rw [add_zero] at hframe
      refine owns_bind hframe fun x => owns_ret ?_
      simp only [SslState.owns, coe_map_toList]
      rw [add_comm (object .ctx s.gServerSslCtx), add_right_comm]
  | createClientContext sockfd =>
      have hframe := owns_frame (@owns_sslCreateClientContext env sockfd) s.owns
      rw [add_zero] at hframe
      exact owns_bind hframe fun c => owns_ret (add_owns s c).symm
  | acceptConnection sockfd =>
      rw [hserver]
      refine owns_bind (owns_frame (owns_sslAcceptConnection s.gServerSslCtx sockfd) _)
        fun c => owns_ret ?_
      rw [add_owns, hserver]
      simp only [add_assoc]
  -- these work on one of them
  | read i len => exact owns_withContext s i fun c => owns_sslRead c len
  | write i buf => exact owns_withContext s i fun c => owns_sslWrite c buf
  | getPeerCertInfo i bufSize =>
      exact owns_withContext s i fun c => owns_sslGetPeerCertInfo c bufSize
  | getCipherInfo i => exact owns_withContext s i owns_sslGetCipherInfo
  -- one of them is given back
  | shutdown i =>
      rw [sslStep]
      split
      · exact owns_ret rfl
      · rename_i c hc
        rw [owns_context hc]
        exact owns_bind (owns_spend _ (owns_sslShutdown c)) fun _ => owns_ret rfl
  | generateSelfSignedCert certFile keyFile =>
      have hframe := owns_spend s.owns
        (@owns_sslGenerateSelfSignedCert env certFile keyFile)
      rw [add_zero] at hframe
      exact owns_bind hframe fun _ => owns_ret rfl
  | cleanup =>
      rw [hserver]
      refine owns_bind (owns_frame (owns_sslCleanup enableSsl s.gServerSslCtx) _)
        fun g => owns_ret ?_
      exact add_right_comm _ _ _

/-- **The run lemma.** -/
lemma owns_sslRun (enableSsl : ℤ) (ops : List SslOp) (s : SslState) :
    Owns sslLedger env (sslRun enableSsl ops s) s.owns SslState.owns := by
  induction ops generalizing s with
  | nil => exact owns_ret rfl
  | cons op ops ih => exact owns_bind (owns_sslStep enableSsl s op) ih

end Runs

/-- Any answers. -/
def anySslAnswer (_ : List (Event SslAnswer)) (c : SslCall) (_ : SslAnswer c) : Prop := True

/-- **The objects of TLS.** Whatever functions on contexts and certificates are called, in any
order and with any answers of the library, each call needs only objects that were made and not
freed, and what was made was freed once, or is a part of the contexts in use, or is a server
context that `ssl_create_server_context` overwrote. The mutex is free again. `ssl_init` is none of
the functions: it makes no object. -/
theorem ssl_objects (enableSsl : ℤ) (ops : List SslOp) (tr : List (Event SslAnswer))
    (out : Outcome SslFault SslState)
    (hrun : Runs anySslAnswer [] (sslRun enableSsl ops ⟨none, [], []⟩) tr out) :
    (∀ pre c r post, tr = pre ++ ⟨c, r⟩ :: post → needs c ≤ sslLedger.held 0 pre) ∧
      ∀ s, out = .returned s →
        sslLedger.held 0 tr = s.owns ∧ sslLedger.gained tr = sslLedger.given tr + s.owns := by
  obtain ⟨hsound, hbalance, hres⟩ := owns_sound (owns_sslRun enableSsl ops ⟨none, [], []⟩) hrun
  refine ⟨hsound, fun s hs => ?_⟩
  have hheld : sslLedger.held 0 tr = s.owns := hres s hs
  refine ⟨hheld, ?_⟩
  have hall : 0 + sslLedger.gained tr = sslLedger.given tr + sslLedger.held 0 tr := hbalance
  rwa [hheld, zero_add] at hall

/-- A library that has one object of each kind and does what it is asked. -/
def willing (_ : List (Event SslAnswer)) : (c : SslCall) → SslAnswer c
  | .ctxNew _ => some 1
  | .ctxUseCertificateFile _ _ => (1 : ℤ)
  | .ctxUsePrivateKeyFile _ _ => (1 : ℤ)
  | .ctxCheckPrivateKey _ => (1 : ℤ)
  | .new _ => some 2
  | .connect _ => (1 : ℤ)
  | .accept _ => (1 : ℤ)
  | .read _ _ => ((0 : ℤ), [])
  | .write _ _ _ => (0 : ℤ)
  | .getError _ _ => (0 : ℤ)
  | .getPeerCertificate _ => none
  | .getCipher _ => []
  | .malloc => some 3
  | .subjectOneline _ => []
  | .issuerOneline _ => []
  | .rsaNew => some 4
  | .rsaGenerateKey _ _ _ => (1 : ℤ)
  | .bnNew => some 5
  | .bnSetWord _ _ => (1 : ℤ)
  | .pkeyNew => some 6
  | .pkeyAssignRsa _ _ => (1 : ℤ)
  | .x509New => some 7
  | .x509Sign _ _ => (1 : ℤ)
  | .fopen _ => some 8
  | .pemWritePrivateKey _ _ => (1 : ℤ)
  | .pemWriteX509 _ _ => (1 : ℤ)
  | .lock => ()
  | .unlock => ()
  | .errPrintErrors => ()
  | .evpCleanup => ()
  | .errFreeStrings => ()
  | .ctxSetMinProtoVersion _ _ => ()
  | .ctxSetCipherList _ _ => ()
  | .ctxSetVerifyNone _ => ()
  | .ctxFree _ => ()
  | .setFd _ _ => ()
  | .shutdown _ => ()
  | .free _ => ()
  | .freeWrapper _ => ()
  | .rsaFree _ => ()
  | .bnFree _ => ()
  | .pkeyFree _ => ()
  | .x509SetVersion _ _ => ()
  | .x509SetSerialNumber _ _ => ()
  | .x509SetNotBefore _ _ => ()
  | .x509SetNotAfter _ _ => ()
  | .x509SetPubkey _ _ => ()
  | .x509AddEntry _ _ _ => ()
  | .x509SetIssuerName _ => ()
  | .x509Free _ => ()
  | .fclose _ => ()

/-- A certificate is made, and a client connects and leaves. -/
def oneSession : List (Event SslAnswer) × Outcome SslFault SslState :=
  play willing [] (sslRun 1 [.generateSelfSignedCert [] [], .createServerContext [] [],
    .acceptConnection 5, .read 0 16, .shutdown 0, .cleanup] ⟨none, [], []⟩)

theorem ssl_objects_oneSession :
    oneSession.2 = .returned ⟨none, [], []⟩ ∧ (sslLedger.gained oneSession.1).card = 12 ∧
      sslLedger.gained oneSession.1 = sslLedger.given oneSession.1 := by
  have hret : oneSession.2 = .returned ⟨none, [], []⟩ := rfl
  have hgained := ((ssl_objects 1 _ _ _ (play_runs (fun _ _ => trivial) _ _)).2 _ hret).2
  exact ⟨hret, rfl, hgained⟩

end ProxyMax.Ssl
