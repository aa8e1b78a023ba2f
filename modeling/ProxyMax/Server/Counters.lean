import ProxyMax.Lib.Sections
import ProxyMax.Server.Statistics

/-!
`src/monitor/stats.c` one access of `g_stats` at a time: `x++` is a load and then a
store, and any number of threads make theirs between those of the others.

* `StatsAccess`, `statsAccess`: the loads and stores of the counters.
* `StatsOp.body`: the functions of `stats.c`, between their lock and their unlock.
* `StatsOp.apply`: what they do as a whole; `statsOp_does` is that they do it.
* `Totals`: the counters are what the calls so far come to.
* `stats_lose_no_update`: no call is lost or counted twice, and a report that is
  printed shows all counters at one point of the order of the calls.
-/

namespace ProxyMax

open CString Interaction Machine Sections

/-! ### The loads and stores -/

/-- The counters of `stats_t`. -/
inductive StatsField where
  | totalConnections
  | activeConnections
  | totalRequests
  | bytesTransferred
deriving DecidableEq

/-- An access of a counter. -/
inductive StatsAccess where
  | load (field : StatsField)
  | store (field : StatsField) (value : ℕ)
deriving DecidableEq

/-- A load gives the value. -/
abbrev StatsAnswer : StatsAccess → Type
  | .load _ => ℕ
  | .store _ _ => Unit

def Stats.get (g : Stats) : StatsField → ℕ
  | .totalConnections => g.totalConnections
  | .activeConnections => g.activeConnections
  | .totalRequests => g.totalRequests
  | .bytesTransferred => g.bytesTransferred

def Stats.set (g : Stats) (value : ℕ) : StatsField → Stats
  | .totalConnections => { g with totalConnections := value }
  | .activeConnections => { g with activeConnections := value }
  | .totalRequests => { g with totalRequests := value }
  | .bytesTransferred => { g with bytesTransferred := value }

/-- What an access does to `g_stats`. -/
def statsAccess (g : Stats) : Event StatsAnswer → Option Stats
  | ⟨.load field, value⟩ => if value = g.get field then some g else none
  | ⟨.store field value, ()⟩ => some (g.set value field)

/-! ### The functions -/

/-- What `stats_print` prints of the counters. It loads `bytes_transferred` once more
for the amount in human readable form. -/
structure StatsReport where
  counters : Stats
  dataTransferred : ℕ
deriving DecidableEq

/-- A call of a function of `stats.c`. -/
inductive StatsOp where
  | incrementConnections
  | decrementConnections
  | incrementRequests
  | addBytesTransferred (bytes : ℕ)
  | print
deriving DecidableEq

/-- A function of `stats.c`, between its lock and its unlock. -/
abbrev StatsSection := Prog StatsAccess StatsAnswer Empty

def loadField (field : StatsField) : StatsSection ℕ := ask (StatsAccess.load field)

def storeField (field : StatsField) (value : ℕ) : StatsSection Unit :=
  ask (StatsAccess.store field value)

/-- `g_stats.field += n`, where `++` is a sum too. -/
def addToField (field : StatsField) (n : ℕ) : StatsSection Unit := do
  let value ← loadField field
  storeField field (addSize value n)

/-- The sections of `stats_increment_connections`, `stats_decrement_connections`,
`stats_increment_requests`, `stats_add_bytes_transferred` and `stats_print`. -/
def StatsOp.body : StatsOp → StatsSection (Option StatsReport)
  | .incrementConnections => do
      addToField .totalConnections 1
      addToField .activeConnections 1
      pure none
  | .decrementConnections => do
      let active ← loadField .activeConnections
      if 0 < active then do
        let active ← loadField .activeConnections
        storeField .activeConnections (active - 1)
        pure none
      else pure none
  | .incrementRequests => do
      addToField .totalRequests 1
      pure none
  | .addBytesTransferred bytes => do
      addToField .bytesTransferred bytes
      pure none
  | .print => do
      let total ← loadField .totalConnections
      let active ← loadField .activeConnections
      let requests ← loadField .totalRequests
      let bytes ← loadField .bytesTransferred
      let dataTransferred ← loadField .bytesTransferred
      pure (some ⟨⟨total, active, requests, bytes⟩, dataTransferred⟩)

/-- `stats_decrement_connections`, as a whole. -/
def statsDecrementConnections (g : Stats) : Stats :=
  { g with activeConnections := g.activeConnections - 1 }

/-- What a call does to the statistics, as a whole. -/
def StatsOp.apply (g : Stats) : StatsOp → Stats
  | .incrementConnections => statsIncrementConnections g
  | .decrementConnections => statsDecrementConnections g
  | .incrementRequests => Command.statsIncrementRequests.count g
  | .addBytesTransferred bytes => (Command.statsAddBytesTransferred bytes).count g
  | .print => g

/-- What a call prints. -/
def StatsOp.report (g : Stats) : StatsOp → Option StatsReport
  | .print => some ⟨g, g.bytesTransferred⟩
  | _ => none

@[simp] lemma does_loadField {ρ : Type} {field : StatsField} {k : ℕ → StatsSection ρ} {g g' : Stats}
    {a : ρ} : Does statsAccess ((loadField field).bind k) g a g' ↔
      Does statsAccess (k (g.get field)) g a g' := by
  simp [loadField, ask, Prog.bind, statsAccess]

@[simp] lemma does_storeField {ρ : Type} {field : StatsField} {value : ℕ}
    {k : Unit → StatsSection ρ} {g g' : Stats} {a : ρ} :
    Does statsAccess ((storeField field value).bind k) g a g' ↔
      Does statsAccess (k ()) (g.set value field) a g' := by
  simp only [storeField, ask, Prog.bind, does_call, statsAccess, Option.some.injEq,
    exists_eq_left']
  constructor
  · rintro ⟨⟨⟩, h⟩
    exact h
  · intro h
    exact ⟨(), h⟩

@[simp] lemma does_addToField {ρ : Type} {field : StatsField} {n : ℕ} {k : Unit → StatsSection ρ}
    {g g' : Stats} {a : ρ} : Does statsAccess ((addToField field n).bind k) g a g' ↔
      Does statsAccess (k ()) (g.set (addSize (g.get field) n) field) a g' := by
  have hassoc : (addToField field n).bind k =
      (loadField field).bind fun value => (storeField field (addSize value n)).bind k := rfl
  rw [hassoc, does_loadField, does_storeField]

/-- **The functions, as a whole.** Alone, a function does what `StatsOp.apply` has it do. -/
lemma statsOp_does {op : StatsOp} {g g' : Stats} {a : Option StatsReport}
    (h : Does statsAccess op.body g a g') : g' = op.apply g ∧ a = op.report g := by
  cases op with
  | incrementConnections =>
      simp only [StatsOp.body, bind_eq, pure_eq, does_addToField, does_ret] at h
      exact ⟨h.2, h.1⟩
  | decrementConnections =>
      simp only [StatsOp.body, bind_eq, pure_eq, does_loadField] at h
      split at h
      · simp only [does_loadField, does_storeField, does_ret] at h
        exact ⟨h.2, h.1⟩
      · rename_i hzero
        rw [does_ret] at h
        refine ⟨?_, h.1⟩
        have hactive : g.activeConnections = 0 := Nat.eq_zero_of_not_pos hzero
        rw [h.2, StatsOp.apply, statsDecrementConnections, hactive, Nat.zero_sub, ← hactive]
  | incrementRequests =>
      simp only [StatsOp.body, bind_eq, pure_eq, does_addToField, does_ret] at h
      exact ⟨h.2, h.1⟩
  | addBytesTransferred bytes =>
      simp only [StatsOp.body, bind_eq, pure_eq, does_addToField, does_ret] at h
      exact ⟨h.2, h.1⟩
  | print =>
      simp only [StatsOp.body, bind_eq, pure_eq, does_loadField, does_ret] at h
      exact ⟨h.2, h.1⟩

/-! ### What the calls come to -/

/-- The bytes that a call adds. -/
def StatsOp.bytes : StatsOp → ℕ
  | .addBytesTransferred bytes => bytes
  | _ => 0

/-- No connection is counted as closed before it is counted as opened, and the connections
fit the counter. -/
structure Paired (ops : List StatsOp) : Prop where
  closed : ∀ pre, pre <+: ops →
    pre.count .decrementConnections ≤ pre.count .incrementConnections
  opened : ops.count .incrementConnections < sizeMod

/-- The counters are what the calls leave one after the other, and so what the calls come to; the
active connections, if they are paired. The counters are `unsigned long`. -/
structure Totals (ops : List StatsOp) (g : Stats) : Prop where
  calls : g = ops.foldl StatsOp.apply statsInit
  connections : g.totalConnections = ops.count .incrementConnections % sizeMod
  active : Paired ops → g.activeConnections =
    ops.count .incrementConnections - ops.count .decrementConnections
  requests : g.totalRequests = ops.count .incrementRequests % sizeMod
  bytes : g.bytesTransferred = (ops.map StatsOp.bytes).sum % sizeMod

lemma totals_nil : Totals [] statsInit := ⟨rfl, rfl, fun _ => rfl, rfl, rfl⟩

lemma Paired.of_snoc {ops : List StatsOp} {op : StatsOp} (h : Paired (ops ++ [op])) :
    Paired ops where
  closed := fun pre hpre => h.closed pre (hpre.trans (List.prefix_append ..))
  opened := by
    have hle := h.opened
    rw [List.count_append] at hle
    omega

/-- A counter that wraps around, one more. -/
lemma addSize_mod (n k : ℕ) : addSize (n % sizeMod) k = (n + k) % sizeMod :=
  Nat.mod_add_mod n sizeMod k

/-- **One call more.** -/
lemma Totals.snoc {ops : List StatsOp} {g : Stats} (h : Totals ops g) (op : StatsOp) :
    Totals (ops ++ [op]) (op.apply g) := by
  have hcalls : op.apply g = (ops ++ [op]).foldl StatsOp.apply statsInit := by
    rw [List.foldl_append, ← h.calls]
    rfl
  cases op with
  | incrementConnections =>
      refine ⟨hcalls, ?_, fun hpaired => ?_, ?_, ?_⟩
      · simp [StatsOp.apply, statsIncrementConnections, h.connections, addSize_mod]
      · -- the connections that are open fit the counter, so it does not wrap
        have hactive := h.active hpaired.of_snoc
        have hclosed := hpaired.of_snoc.closed ops (List.prefix_refl ops)
        have hopened := hpaired.opened
        rw [List.count_append, List.count_singleton_self] at hopened
        simp only [StatsOp.apply, statsIncrementConnections, hactive, List.count_append,
          List.count_singleton_self]
        rw [addSize, Nat.mod_eq_of_lt (by omega)]
        simp
        omega
      · simpa [StatsOp.apply, statsIncrementConnections] using h.requests
      · simpa [StatsOp.apply, statsIncrementConnections, StatsOp.bytes] using h.bytes
  | decrementConnections =>
      refine ⟨hcalls, ?_, fun hpaired => ?_, ?_, ?_⟩
      · simpa [StatsOp.apply, statsDecrementConnections] using h.connections
      · have hactive := h.active hpaired.of_snoc
        simp only [StatsOp.apply, statsDecrementConnections, hactive, List.count_append,
          List.count_singleton_self]
        simp
        omega
      · simpa [StatsOp.apply, statsDecrementConnections] using h.requests
      · simpa [StatsOp.apply, statsDecrementConnections, StatsOp.bytes] using h.bytes
  | incrementRequests =>
      refine ⟨hcalls, ?_, fun hpaired => ?_, ?_, ?_⟩
      · simpa [StatsOp.apply, Command.count] using h.connections
      · simpa [StatsOp.apply, Command.count] using h.active hpaired.of_snoc
      · simp [StatsOp.apply, Command.count, h.requests, addSize_mod]
      · simpa [StatsOp.apply, Command.count, StatsOp.bytes] using h.bytes
  | addBytesTransferred n =>
      refine ⟨hcalls, ?_, fun hpaired => ?_, ?_, ?_⟩
      · simpa [StatsOp.apply, Command.count] using h.connections
      · simpa [StatsOp.apply, Command.count] using h.active hpaired.of_snoc
      · simpa [StatsOp.apply, Command.count] using h.requests
      · simp [StatsOp.apply, Command.count, StatsOp.bytes, h.bytes, addSize_mod]
  | print =>
      refine ⟨hcalls, ?_, fun hpaired => ?_, ?_, ?_⟩
      · simpa [StatsOp.apply] using h.connections
      · simpa [StatsOp.apply] using h.active hpaired.of_snoc
      · simpa [StatsOp.apply] using h.requests
      · simpa [StatsOp.apply, StatsOp.bytes] using h.bytes

/-- A report shows the totals of the calls before it, all at one point of their order. -/
def ReportsAgree (ops : List (StatsOp × Option StatsReport)) : Prop :=
  ∀ pre op report post, ops = pre ++ (op, some report) :: post →
    op = .print ∧ Totals (pre.map Prod.fst) report.counters ∧
      report.dataTransferred = report.counters.bytesTransferred

/-- Calls one after the other leave the totals, and print them. -/
lemma serial_totals {ops : List (StatsOp × Option StatsReport)} {g : Stats}
    (h : Serial statsAccess StatsOp.body statsInit ops g) :
    Totals (ops.map Prod.fst) g ∧ ReportsAgree ops := by
  refine h.invariant (P := fun ops g => Totals (ops.map Prod.fst) g ∧ ReportsAgree ops) ?_
    ⟨totals_nil, fun pre op report post he => by simp at he⟩
  rintro ops g op a g' ⟨htotals, hreports⟩ hdoes
  obtain ⟨rfl, rfl⟩ := statsOp_does hdoes
  refine ⟨by simpa using htotals.snoc op, fun pre op' report post he => ?_⟩
  rcases List.eq_nil_or_concat' post with rfl | ⟨post, last, rfl⟩
  · obtain ⟨rfl, hlast⟩ := List.append_inj' he rfl
    obtain ⟨rfl, hreport⟩ := Prod.mk.inj (List.singleton_inj.mp hlast)
    cases op <;> simp only [StatsOp.report, Option.some.injEq, reduceCtorEq] at hreport
    subst hreport
    exact ⟨rfl, htotals, rfl⟩
  · rw [← List.cons_append, ← List.append_assoc] at he
    obtain ⟨he, -⟩ := List.append_inj' he rfl
    exact hreports pre op' report post he

/-- **No update is lost.** However the loads and stores of the threads interleave, with
nobody in a section the counters are what all completed calls leave one after the other, and so
what these come to, none lost and none counted twice; the active connections come to those opened
and not closed where no connection is counted as closed before it is counted as opened. Every
report printed shows all counters at one point of the order of the calls. -/
theorem stats_lose_no_update {T : Type} [DecidableEq T] (moves : List (Move T StatsOp StatsAnswer))
    (log : List (Move T StatsOp StatsAnswer × Option (StatsOp × Option StatsReport)))
    (s : System T Stats StatsOp StatsAnswer Empty (Option StatsReport))
    (hrun : exec (sectionStep statsAccess StatsOp.body) (System.idle statsInit) moves =
      some (log, s)) :
    (s.owner = none → Totals ((completed log).map Prod.fst) s.memory) ∧
      ReportsAgree (completed log) := by
  obtain ⟨base, hserial, hguarded⟩ := serializable hrun
  obtain ⟨htotals, hreports⟩ := serial_totals hserial
  refine ⟨fun howner => ?_, hreports⟩
  rw [hguarded.free howner]
  exact htotals

/-- A report is asked for while a request is being counted. -/
def countedMoves {T : Type} (t u : T) : List (Move T StatsOp StatsAnswer) :=
  [.call t .incrementRequests, .lock t, .access t ⟨.load .totalRequests, (0 : ℕ)⟩, .call u .print,
    .access t ⟨.store .totalRequests 1, ()⟩, .unlock t, .lock u,
    .access u ⟨.load .totalConnections, (0 : ℕ)⟩, .access u ⟨.load .activeConnections, (0 : ℕ)⟩,
    .access u ⟨.load .totalRequests, (1 : ℕ)⟩, .access u ⟨.load .bytesTransferred, (0 : ℕ)⟩,
    .access u ⟨.load .bytesTransferred, (0 : ℕ)⟩, .unlock u]

/-- The report has the request. -/
theorem stats_lose_no_update_counted : ∃ log s,
    exec (sectionStep statsAccess StatsOp.body) (System.idle statsInit)
      (countedMoves (0 : Fin 2) 1) = some (log, s) ∧
    completed log = [(.incrementRequests, none), (.print, some ⟨⟨0, 0, 1, 0⟩, 0⟩)] ∧
    Totals [.incrementRequests, .print] s.memory ∧ ReportsAgree (completed log) := by
  have hrun : (exec (sectionStep statsAccess StatsOp.body) (System.idle statsInit)
      (countedMoves (0 : Fin 2) 1)).map (fun r => (completed r.1, r.2.owner)) =
        some ([(.incrementRequests, none), (.print, some ⟨⟨0, 0, 1, 0⟩, 0⟩)], none) := by
    decide +kernel
  obtain ⟨⟨log, s⟩, hexec, hout⟩ := Option.map_eq_some_iff.mp hrun
  obtain ⟨hlog, howner⟩ := Prod.mk.inj hout
  obtain ⟨htotals, hreports⟩ := stats_lose_no_update (countedMoves 0 1) log s hexec
  have hops := htotals howner
  rw [hlog] at hops
  exact ⟨log, s, hexec, hlog, hops, hreports⟩

end ProxyMax
