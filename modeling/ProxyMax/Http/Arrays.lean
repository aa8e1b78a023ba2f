import ProxyMax.Http.Handler
import ProxyMax.Server.Streams

/-!
The arrays of `http_handle_request` that the request is written to: `method`, `url`,
`version` and `host`.

* `OverrunsArrays`, `ArraysFit`: what it is for a handler to leave them, and to stay
  inside them.
* `requestWords`, `RequestFits`: the words of the text, and the lengths they may have.
* `scanRequestLine_eq`: the scan fails exactly where a word does not fit.
* `arraysFit_iff`: the handler stays inside its arrays if and only if the text fits.
-/

namespace ProxyMax

open CString Interaction

/-- The failure is a write past the end of one of the arrays of the request. There are
two other places that overrun is looked for: the arrays of the credentials, right
after the request is counted, and the buffer of a response, after a connection. -/
def OverrunsArrays (config : HandlerConfig) (e : Fault) (tr : Trace) : Prop :=
  e = .overrun ∧ (∀ event ∈ tr, ∀ host port, event.1 ≠ .connectToHost host port) ∧
    ¬(config.enableAuth ≠ 0 ∧ tr.getLast? = some ⟨.statsIncrementRequests, ()⟩)

/-- The first `recv` of a handler. -/
def receipt (received : Bytes) (pos : 0 < received.length)
    (le : received.length ≤ bufferSize - 1) : Event Reply :=
  ⟨.recv .client (bufferSize - 1), .data received pos le⟩

/-- What is written to the arrays of the request fits them, in every run of the handler
that receives the text. The parser cuts the destination to the length of its array, and
the other lengths are checked where they are written. -/
structure ArraysFit (received : Bytes) (pos : 0 < received.length)
    (le : received.length ≤ bufferSize - 1) : Prop where
  parsed : ∀ url host port, destinationOf (cstr received) url = some (host, port) →
    host.length < maxHostname
  handled : ∀ env config fuel host conn tr e,
    Runs env [] (httpHandleRequest config fuel host conn) (receipt received pos le :: tr)
      (.raised e) → ¬OverrunsArrays config e (receipt received pos le :: tr)

/-- The first three words of a text, empty where there are fewer. -/
def requestWords (s : Bytes) : Bytes × Bytes × Bytes :=
  let (method, rest) := scanToken s
  let (url, rest) := scanToken rest
  (method, url, (scanToken rest).1)

/-- The three words fit their arrays. -/
def WordsFit : Bytes × Bytes × Bytes → Prop
  | (method, url, version) => method.length < 16 ∧ url.length < maxPath ∧ version.length < 16

instance : (words : Bytes × Bytes × Bytes) → Decidable (WordsFit words)
  | (_, _, _) => inferInstanceAs (Decidable (_ ∧ _ ∧ _))

/-- Where the three words are there and the first is `CONNECT`, what the second has before
its colon fits the array of the host. -/
def TargetFits : Bytes × Bytes × Bytes → Prop
  | (method, url, version) => version ≠ [] → method = ascii "CONNECT" → (58 : UInt8) ∈ url →
      (url.takeWhile (· ≠ 58)).length < maxHostname

instance : (words : Bytes × Bytes × Bytes) → Decidable (TargetFits words)
  | (_, _, _) => inferInstanceAs (Decidable (_ → _ → _ → _))

/-- The text fits the arrays, or it has no line end and is not scanned. -/
def RequestFits (s : Bytes) : Prop :=
  strstr s crlf = none ∨ WordsFit (requestWords s) ∧ TargetFits (requestWords s)

instance (s : Bytes) : Decidable (RequestFits s) := inferInstanceAs (Decidable (_ ∨ _ ∧ _))

/-! ### The parser -/

lemma scanWord_eq (size : ℕ) (s : Bytes) :
    scanWord size s =
      if (scanToken s).1 = [] then .ok none
      else if size ≤ (scanToken s).1.length then .error .overrun
      else .ok (some (scanToken s)) := rfl

/-- **The scan of the request line** in terms of the words of the text. -/
lemma scanRequestLine_eq (s : Bytes) :
    scanRequestLine s =
      if WordsFit (requestWords s) then
        .ok (if (requestWords s).2.2 = [] then none else some (requestWords s))
      else .error .overrun := by
  obtain ⟨method, rest, hm⟩ : ∃ method rest, scanToken s = (method, rest) := ⟨_, _, rfl⟩
  obtain ⟨url, rest', hu⟩ : ∃ url rest', scanToken rest = (url, rest') := ⟨_, _, rfl⟩
  obtain ⟨version, rest'', hv⟩ : ∃ version rest'', scanToken rest' = (version, rest'') :=
    ⟨_, _, rfl⟩
  have hwords : requestWords s = (method, url, version) := by simp [requestWords, hm, hu, hv]
  have hempty : scanToken [] = ([], []) := rfl
  simp only [scanRequestLine, scanWord_eq, hwords, WordsFit, hm]
  -- the words are scanned in turn: one that is not there ends the scan, one that is too long
  -- overruns its array
  by_cases hm0 : method = []
  · -- no word at all
    have hnil := scanToken_eq_nil (s := s) (by rw [hm]; exact hm0)
    rw [hm, Prod.mk.injEq] at hnil
    obtain ⟨rfl, rfl⟩ := hnil
    rw [hempty, Prod.mk.injEq] at hu
    obtain ⟨rfl, rfl⟩ := hu
    rw [hempty, Prod.mk.injEq] at hv
    obtain ⟨rfl, rfl⟩ := hv
    rfl
  by_cases hml : 16 ≤ method.length
  · rw [if_neg hm0, if_pos hml, if_neg fun hfit => by omega]
    rfl
  rw [if_neg hm0, if_neg hml]
  simp only [bind, Except.bind, hu]
  by_cases hu0 : url = []
  · -- one word
    have hnil := scanToken_eq_nil (s := rest) (by rw [hu]; exact hu0)
    rw [hu, Prod.mk.injEq] at hnil
    obtain ⟨rfl, rfl⟩ := hnil
    rw [hempty, Prod.mk.injEq] at hv
    obtain ⟨rfl, rfl⟩ := hv
    simp [pure, Except.pure, not_le.mp hml, maxPath]
  by_cases hul : maxPath ≤ url.length
  · rw [if_neg hu0, if_pos hul, if_neg fun hfit => by omega]
  rw [if_neg hu0, if_neg hul]
  simp only [hv]
  by_cases hv0 : version = []
  · -- two words
    subst hv0
    simp [pure, Except.pure, not_le.mp hml, not_le.mp hul]
  by_cases hvl : 16 ≤ version.length
  · rw [if_neg hv0, if_pos hvl, if_neg fun hfit => by omega]
  rw [if_neg hv0, if_neg hvl, if_pos ⟨by omega, by omega, by omega⟩, if_neg hv0]
  rfl

/-- The parser fails where it scans words that do not fit. -/
lemma httpParseRequest_error_iff {s host : Bytes} {port : ℤ} {fault : Fault} :
    httpParseRequest s host port = .error fault ↔
      strstr s crlf ≠ none ∧ ¬WordsFit (requestWords s) ∧ fault = .overrun := by
  rw [httpParseRequest, scanRequestLine_eq]
  by_cases hline : strstr s crlf = none
  · simp [hline, pure, Except.pure]
  by_cases hfit : WordsFit (requestWords s)
  · by_cases hv : (requestWords s).2.2 = [] <;>
      simp [hline, hfit, hv, bind, Except.bind, pure, Except.pure]
  · simp [hline, hfit, bind, Except.bind, eq_comm]

/-- The words of a request that is parsed. -/
lemma requestWords_of_parsed {s host : Bytes} {port : ℤ} {request : Request}
    (h : httpParseRequest s host port = .ok (some request)) :
    requestWords s = (request.method, request.url, request.version) ∧
      request.version ≠ [] := by
  have hline := (httpParseRequest_eq_some h).1
  rw [scanRequestLine_eq] at hline
  split at hline
  · by_cases hv : (requestWords s).2.2 = []
    · simp [hv] at hline
    · simp only [hv, if_false, Except.ok.injEq, Option.some.injEq] at hline
      exact ⟨hline, by rw [hline] at hv; exact hv⟩
  · simp at hline

/-- Three words that fit are parsed. -/
lemma exists_parsed {s : Bytes} (hline : strstr s crlf ≠ none) (hfit : WordsFit (requestWords s))
    (hv : (requestWords s).2.2 ≠ []) (host : Bytes) (port : ℤ) :
    ∃ request, httpParseRequest s host port = .ok (some request) := by
  rw [httpParseRequest, if_neg hline, scanRequestLine_eq, if_pos hfit, if_neg hv]
  exact ⟨_, rfl⟩

/-! ### The destination -/

lemma splitHostPort_fits {text host : Bytes} {port : ℤ} {n : ℕ}
    (h : splitHostPort (text.take (min n (maxHostname - 1))) = (host, port)) :
    host.length < maxHostname := by
  have hpre := splitHostPort_prefix (text.take (min n (maxHostname - 1)))
  rw [h] at hpre
  calc host.length
      ≤ (text.take (min n (maxHostname - 1))).length := hpre.length_le
    _ ≤ min n (maxHostname - 1) := List.length_take_le _ _
    _ ≤ maxHostname - 1 := min_le_right _ _
    _ < maxHostname := by decide

/-- The parser cuts the destination to the length of its array. -/
lemma destinationOf_fits {buffer url host : Bytes} {port : ℤ}
    (h : destinationOf buffer url = some (host, port)) : host.length < maxHostname := by
  rw [destinationOf] at h
  split at h
  · obtain ⟨hostEnd, _, hsplit⟩ := Option.map_eq_some_iff.mp h
    exact splitHostPort_fits hsplit
  · rw [hostOfUrl] at h
    split at h
    · obtain ⟨pathStart, _, hsplit⟩ := Option.map_eq_some_iff.mp h
      exact splitHostPort_fits hsplit
    · simp at h

/-- The copy of the `CONNECT` branch overruns the array of the host. -/
lemma connectTarget_error_iff {request : Request} {fault : Fault} :
    connectTarget request = .error fault ↔
      (58 : UInt8) ∈ request.url ∧ maxHostname ≤ (request.url.takeWhile (· ≠ 58)).length ∧
        fault = .overrun := by
  rw [connectTarget]
  split
  · rename_i hnone
    simp [strchr_eq_none_iff.mp hnone]
  · rename_i colon hsome
    have hmem : (58 : UInt8) ∈ request.url := by
      by_contra hmem
      rw [strchr_eq_none_iff.mpr hmem] at hsome
      cases hsome
    dsimp only
    by_cases hlen : maxHostname ≤ (request.url.takeWhile (· ≠ 58)).length
    · rw [if_pos hlen, Except.error.injEq, eq_comm]
      exact ⟨fun he => ⟨hmem, hlen, he⟩, fun he => he.2.2⟩
    · rw [if_neg hlen]
      exact iff_of_false (fun he => nomatch he) fun he => hlen he.2.1

/-! ### The failures of the handler -/

section Failing

variable {config : HandlerConfig}

/-- The failures that are none of the arrays of the request. -/
def SparesArrays (config : HandlerConfig) (e : Fault) (tr : Trace) : Prop :=
  ¬OverrunsArrays config e tr

lemma sparesArrays_outOfFuel (tr : Trace) : SparesArrays config .outOfFuel tr := by
  rintro ⟨he, -⟩
  cases he

lemma fails_refuse (fuel : ℕ) (response : Bytes) (conn : Connection) (h : Trace) :
    Fails (SparesArrays config) (refuse fuel response conn) h :=
  fails_bind (fails_sendAll sparesArrays_outOfFuel fuel .client response h) fun _ _ => trivial

/-- After a connection the arrays of the request are not written any more. -/
lemma fails_connected {α : Type} (p : Handler α) {h : Trace} {host : Bytes} {port : ℤ} {fd : ℤ} :
    Fails (SparesArrays config) p (h ++ [⟨.connectToHost host port, fd⟩]) := by
  refine fails_of_stable (I := fun h => ∃ event ∈ h, ∃ host port,
    event.1 = .connectToHost host port) ?_ ?_ p
    ⟨⟨.connectToHost host port, fd⟩, by simp, host, port, rfl⟩
  · rintro e h ⟨event, hmem, host, port, hevent⟩ ⟨-, hnone, -⟩
    exact hnone event hmem host port hevent
  · rintro h c r ⟨event, hmem, hevent⟩
    exact ⟨event, List.mem_append_left _ hmem, hevent⟩

lemma fails_httpConnect {request : Request} (hfit : ∀ fault, connectTarget request ≠ .error fault)
    (fuel : ℕ) (conn : Connection) (h : Trace) :
    Fails (SparesArrays config) (httpConnect fuel request conn) h := by
  rw [httpConnect]
  split
  · rename_i fault herror
    exact absurd herror (hfit fault)
  · exact fun _ => fails_connected _

lemma fails_httpFetch (fuel : ℕ) (received : Bytes) (request : Request) (conn : Connection)
    (h : Trace) : Fails (SparesArrays config) (httpFetch config fuel received request conn) h := by
  have hanswer : ∀ cached h, Fails (SparesArrays config)
      (httpAnswer config fuel received request conn cached) h := by
    rintro (_ | data) h
    · exact fun _ => fails_connected _
    · exact fails_bind (fails_sendAll sparesArrays_outOfFuel fuel .client data h) fun _ _ => trivial
  rw [httpFetch]
  split
  · exact fun cached => hanswer cached _
  · exact hanswer none h

lemma fails_httpRoute {request : Request}
    (hfit : request.method = ascii "CONNECT" → ∀ fault, connectTarget request ≠ .error fault)
    (fuel : ℕ) (received : Bytes) (conn : Connection) (h : Trace) :
    Fails (SparesArrays config) (httpRoute config fuel received request conn) h := by
  have hunblocked : ∀ (blocked : ℤ) h, Fails (SparesArrays config)
      (if blocked ≠ 0 then refuse fuel forbidden conn
       else if request.method = ascii "CONNECT" then httpConnect fuel request conn
       else httpFetch config fuel received request conn) h := by
    intro blocked h
    split
    · exact fails_refuse ..
    · split
      · rename_i hmethod
        exact fails_httpConnect (hfit hmethod) fuel conn h
      · exact fails_httpFetch ..
  rw [httpRoute]
  split
  · exact fun blocked => hunblocked blocked _
  · exact hunblocked 0 h

/-- A request that fits is served without a write past the end of its arrays. -/
lemma fails_httpServe {request : Request}
    (hfit : request.method = ascii "CONNECT" → ∀ fault, connectTarget request ≠ .error fault)
    (fuel : ℕ) (received : Bytes) (conn : Connection) (h : Trace) :
    Fails (SparesArrays config) (httpServe config fuel received request conn) h := by
  simp only [httpServe, statsIncrementRequests, ask, bind_eq, Prog.bind]
  intro _
  split
  · rename_i hauth
    refine fails_bind ?_ fun verified tr => ?_
    · rw [httpAuthenticate]
      split
      · trivial
      · split
        · -- the arrays of the credentials
          rintro ⟨-, -, hlast⟩
          exact hlast ⟨hauth, by simp⟩
        · exact fun _ => trivial
    · split
      · exact fails_httpRoute hfit ..
      · exact fails_refuse ..
  · exact fails_httpRoute hfit ..

end Failing

/-! ### The handler -/

section Handling

variable {received : Bytes} {pos : 0 < received.length} {le : received.length ≤ bufferSize - 1}

lemma arraysFit_of_requestFits (hfit : RequestFits (cstr received)) :
    ArraysFit received pos le := by
  refine ⟨fun _ _ _ => destinationOf_fits, fun env config fuel host conn tr e hrun => ?_⟩
  simp only [httpHandleRequest, recv, ask, bind_eq, Prog.bind, receipt] at hrun
  cases hrun with
  | call _ hrun =>
    refine fails_sound (F := SparesArrays config) ?_ hrun
    dsimp only
    cases hparse : httpParseRequest (cstr received) host 80 with
    | error fault =>
        obtain ⟨hline, hwords, -⟩ := httpParseRequest_error_iff.mp hparse
        exact absurd hfit (by simp [RequestFits, hline, hwords])
    | ok parsed =>
        cases parsed with
        | none => exact fails_refuse ..
        | some request =>
            refine @fails_httpServe config request (fun hmethod fault herror => ?_) fuel _ _ _
            obtain ⟨hwords, hv⟩ := requestWords_of_parsed hparse
            obtain ⟨hcolon, hlen, -⟩ := connectTarget_error_iff.mp herror
            rcases hfit with hnone | ⟨-, htarget⟩
            · simp [httpParseRequest, hnone, pure, Except.pure] at hparse
            · rw [hwords] at htarget
              exact absurd (htarget hv hmethod hcolon) (not_lt.mpr hlen)

/-- The run that stops right after the receipt of the request, or after it is counted,
in a proxy with all features off. -/
lemma runs_of_overrun (host : Bytes) (conn : Connection) (tr : Trace)
    (hrun : Runs (fun _ _ _ => True) [receipt received pos le]
      (match httpParseRequest (cstr received) host 80 with
        | .error fault => .raise fault
        | .ok none => refuse 0 badRequest conn
        | .ok (some request) => httpServe plainConfig 0 received request conn) tr
      (.raised .overrun))
    (htr : ∀ event ∈ tr, event = ⟨.statsIncrementRequests, ()⟩) :
    ¬ArraysFit received pos le := by
  intro hfit
  refine hfit.handled _ plainConfig 0 host conn tr .overrun (.call trivial hrun) ⟨rfl, ?_, ?_⟩
  · intro event hmem host port
    rcases List.mem_cons.mp hmem with rfl | hmem
    · simp [receipt]
    · rw [htr event hmem]
      simp
  · simp [plainConfig]

lemma requestFits_of_arraysFit (hfit : ArraysFit received pos le) :
    RequestFits (cstr received) := by
  by_cases hline : strstr (cstr received) crlf = none
  · exact .inl hline
  have hwords : WordsFit (requestWords (cstr received)) := by
    by_contra hwords
    refine runs_of_overrun [] ⟨[], -1, 0, 0, 0⟩ [] ?_ (by simp) hfit
    rw [httpParseRequest_error_iff.mpr ⟨hline, hwords, rfl⟩]
    exact .raise _ _
  refine .inr ⟨hwords, ?_⟩
  by_contra htarget
  have hv : (requestWords (cstr received)).2.2 ≠ [] := fun hv =>
    htarget fun hne => absurd hv hne
  obtain ⟨request, hparse⟩ := exists_parsed hline hwords hv [] 80
  have hparsed := (requestWords_of_parsed hparse).1
  rw [hparsed] at htarget
  simp only [TargetFits, Classical.not_imp, not_lt] at htarget
  obtain ⟨-, hmethod, hcolon, hlen⟩ := htarget
  have herror := connectTarget_error_iff.mpr ⟨hcolon, hlen, rfl⟩
  refine runs_of_overrun [] ⟨[], -1, 0, 0, 0⟩ [⟨.statsIncrementRequests, ()⟩] ?_ (by simp) hfit
  rw [hparse]
  refine .call trivial ?_
  simp only [plainConfig, ne_eq, not_true_eq_false, if_false, httpRoute, pure_eq, bind_eq,
    Prog.bind, hmethod, if_true, httpConnect, herror]
  exact .raise _ _

end Handling

/-- **The arrays of the request.** The handler stays inside them in every run if and only
if the text it receives fits: nothing bounds the words that `sscanf` reads, nor the part
of the URL that the `CONNECT` branch copies. -/
theorem arraysFit_iff (received : Bytes) (pos : 0 < received.length)
    (le : received.length ≤ bufferSize - 1) :
    ArraysFit received pos le ↔ RequestFits (cstr received) :=
  ⟨requestFits_of_arraysFit, arraysFit_of_requestFits⟩

theorem arraysFit_iff_get :
    ArraysFit (ascii "GET http://h/ HTTP/1.1\r\n\r\n") (by decide) (by decide) :=
  (arraysFit_iff (ascii "GET http://h/ HTTP/1.1\r\n\r\n") (by decide) (by decide)).mpr (by decide)

/-- A method of sixteen letters. -/
def longMethod : Bytes := ascii "AAAAAAAAAAAAAAAA / HTTP/1.1\r\n\r\n"

theorem longMethod_overruns :
    ¬∀ (received : Bytes) (pos : 0 < received.length) (le : received.length ≤ bufferSize - 1),
      ArraysFit received pos le := by
  intro hall
  have hfit := requestFits_of_arraysFit (hall longMethod (by decide) (by decide))
  exact absurd hfit (by decide)

end ProxyMax
