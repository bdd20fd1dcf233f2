import BoundSql.Proofs.Metadata.Calls
import Mathlib.Logic.Function.Basic

/-! # Tasks that share a cache
A call for metadata that is not known waits for the server. Nothing is locked meanwhile: other tasks
call, drop what is known and change the table.
* **`SharedCache`** — a cache without a store and the calls that wait. For the proofs alone it keeps
  which columns (`Taking`) the known metadata is made of.
* **`SharedCache.Step`**, **`SharedCache.Run`** — what can happen next, and all that can happen.
* **`SharedCache.exists_run_entry`** — a call that nothing comes between is `Cache.entry`.
* **`SharedCache.answer_after_drop`** — a call that is started after a drop is answered from columns
  taken before it exactly if the call that took them was waiting at the drop and put them back.
* **`SharedCache.outlives_drop`** — there are such answers. -/

namespace BoundSql

/-! ### States -/

/-- Columns that were taken from a server: how it described a table at a moment. -/
structure Taking where
  /-- The number of steps before. -/
  moment : Nat
  /-- What the server answered. -/
  description : Except DbError (List Column)

/-- The metadata of a source that is made of the columns. -/
def Taking.metadata (taking : Taking) (name : String) : Except DbError Metadata :=
  taking.description.bind (Metadata.ofColumns name)

@[simp] theorem Taking.metadata_error (moment : Nat) (e : DbError) (name : String) :
    (⟨moment, .error e⟩ : Taking).metadata name = .error e := rfl

@[simp] theorem Taking.metadata_ok (moment : Nat) (columns : List Column) (name : String) :
    (⟨moment, .ok columns⟩ : Taking).metadata name = Metadata.ofColumns name columns := rfl

/-- A call for metadata that waits. The table was described when it was started. -/
structure Waiting where
  /-- The source it asks for. -/
  source : Source
  /-- The columns it has taken. -/
  taking : Taking

/-- An answer to a call for metadata. -/
structure Answer where
  /-- The source that was asked for. -/
  name : String
  /-- The moment the call was started. -/
  started : Nat
  /-- The columns the answer is made of. -/
  taking : Taking
  /-- The answer itself. -/
  metadata : Except DbError Metadata

/-- A cache without a store that tasks share, each of which waits for at most one call. -/
structure SharedCache (Task ι σ : Type) where
  /-- The cache. -/
  cache : Cache ι
  /-- It has no store. -/
  storeless : cache.store = none
  /-- The server that describes the tables. -/
  server : σ
  /-- The calls that wait, by task. -/
  waiting : Task → Option Waiting
  /-- The number of steps so far. -/
  clock : Nat
  /-- The columns that what is known of a source is made of. No step depends on them. -/
  origin : String → Taking

/-- What is seen of a step. -/
inductive Label (Task : Type)
  /-- A task has the table of a source described. -/
  | asked (task : Task) (source : Source) (description : Except DbError (List Column))
  /-- A call of a task is answered. -/
  | answered (task : Task) (answer : Answer)
  /-- What is known of a source is dropped. -/
  | invalidated (name : String)
  /-- All that is known is dropped. -/
  | emptied
  /-- The tables change. -/
  | changed

/-- Whether a step drops what is known of a source. -/
def Label.Drops {Task : Type} (name : String) : Label Task → Prop
  | invalidated dropped => dropped = name
  | emptied => True
  | _ => False

namespace SharedCache

variable {Task ι σ τ : Type} [DecidableEq Task]

/-! ### Steps -/

section

variable (s : SharedCache Task ι σ)

/-- The state a moment later. -/
def tick : SharedCache Task ι σ := { s with clock := s.clock + 1 }

/-- The table of a source is described to a task, which waits from now on. -/
def ask (describe : Describe σ) (task : Task) (source : Source) : SharedCache Task ι σ :=
  let r := describe source s.server
  { s.tick with
    server := r.2
    waiting := Function.update s.waiting task (some ⟨source, ⟨s.clock, r.1⟩⟩) }

/-- A task does not wait any more. -/
def release (task : Task) : SharedCache Task ι σ :=
  { s.tick with waiting := Function.update s.waiting task none }

/-- A task does not wait any more, and what its call has made of its columns is put into the
cache. -/
def put (task : Task) (call : Waiting) (m : Metadata) : SharedCache Task ι σ :=
  { s.release task with
    cache := s.cache.insert call.source.name m
    storeless := s.storeless
    origin := Function.update s.origin call.source.name call.taking }

/-- What is known of a source is dropped. -/
def invalidate (name : String) : SharedCache Task ι σ :=
  { s.tick with cache := (s.cache.invalidate name).2, storeless := s.storeless }

/-- All that is known is dropped. -/
def reset : SharedCache Task ι σ := { s.tick with cache := s.cache.reset, storeless := s.storeless }

/-- The server is another one from now on. -/
def change (server : σ) : SharedCache Task ι σ := { s.tick with server }

theorem waiting_ask (describe : Describe σ) (task : Task) (source : Source) :
    (s.ask describe task source).waiting = Function.update s.waiting task
      (some ⟨source, ⟨s.clock, (describe source s.server).1⟩⟩) := rfl

theorem waiting_release (task : Task) :
    (s.release task).waiting = Function.update s.waiting task none := rfl

theorem waiting_put (task : Task) (call : Waiting) (m : Metadata) :
    (s.put task call m).waiting = (s.release task).waiting := rfl

end

/-- `s.Step describe label t`: a step of some task, or of the tables, takes `s` to `t`. -/
inductive Step (describe : Describe σ) (s : SharedCache Task ι σ) :
    Label Task → SharedCache Task ι σ → Prop
  /-- A call for what is known is answered at once. -/
  | hit {task : Task} {source : Source} {m : Metadata} (idle : s.waiting task = none)
      (known : s.cache.cached source.name = some m) :
    Step describe s (.answered task ⟨source.name, s.clock, s.origin source.name, .ok m⟩) s.tick
  /-- A call for what is not known has the table described and waits. -/
  | miss {task : Task} {source : Source} (idle : s.waiting task = none)
      (unknown : s.cache.cached source.name = none) :
    Step describe s (.asked task source (describe source s.server).1) (s.ask describe task source)
  /-- A waiting call puts what its columns make into the cache, and is answered with it. -/
  | finish {task : Task} {call : Waiting} {m : Metadata} (waits : s.waiting task = some call)
      (made : call.taking.metadata call.source.name = .ok m) :
    Step describe s
      (.answered task ⟨call.source.name, call.taking.moment, call.taking, .ok m⟩)
      (s.put task call m)
  /-- A waiting call that was given no columns fails. -/
  | fail {task : Task} {call : Waiting} {e : DbError} (waits : s.waiting task = some call)
      (failed : call.taking.metadata call.source.name = .error e) :
    Step describe s
      (.answered task ⟨call.source.name, call.taking.moment, call.taking, .error e⟩)
      (s.release task)
  /-- What is known of a source is dropped. -/
  | invalidate (name : String) : Step describe s (.invalidated name) (s.invalidate name)
  /-- All that is known is dropped. -/
  | reset : Step describe s .emptied s.reset
  /-- The tables change in any way. -/
  | change (server : σ) : Step describe s .changed (s.change server)

/-- `s.Run describe labels t`: steps in any order take `s` to `t`. -/
inductive Run (describe : Describe σ) (s : SharedCache Task ι σ) :
    List (Label Task) → SharedCache Task ι σ → Prop
  /-- Nothing has happened. -/
  | nil : Run describe s [] s
  /-- One step more. -/
  | snoc {labels : List (Label Task)} {label : Label Task} {t u : SharedCache Task ι σ}
      (run : Run describe s labels t) (step : t.Step describe label u) :
    Run describe s (labels ++ [label]) u

/-- A cache that knows nothing, before any call. -/
def start (keyPrefix : String) (server : σ) : SharedCache Task ι σ where
  cache := { keyPrefix }
  storeless := rfl
  server := server
  waiting _ := none
  clock := 0
  origin _ := ⟨0, .ok []⟩

variable {describe : Describe σ} {s t u : SharedCache Task ι σ} {label : Label Task}
  {labels labels' : List (Label Task)} {task : Task} {call : Waiting} {name : String} {m : Metadata}

theorem Run.one (step : s.Step describe label t) : s.Run describe [label] t := .snoc .nil step

theorem Run.trans (hst : s.Run describe labels t) (htu : t.Run describe labels' u) :
    s.Run describe (labels ++ labels') u := by
  induction htu with
  | nil => rwa [List.append_nil]
  | snoc _ step ih =>
    rw [← List.append_assoc]
    exact .snoc ih step

/-- Every step takes one moment. -/
theorem Step.clock_eq (h : s.Step describe label t) : t.clock = s.clock + 1 := by
  cases h <;> rfl

/-! ### A call that nothing comes between -/

/-- A call whose steps follow one another, of which there are at most two, answers as the call of a
cache without a store, and leaves the same cache and the same server. -/
theorem exists_run_entry (idle : s.waiting task = none) (access : StoreAccess ι τ) (now : Moment)
    (source : Source) {w : World σ τ} (hserver : w.server = s.server) :
    let r := s.cache.entry access now describe source w
    ∃ asked taking t, asked ∈ [[], [.asked task source (describe source s.server).1]] ∧
      s.Run describe (asked ++ [.answered task ⟨source.name, s.clock, taking, r.1⟩]) t ∧
        t.cache = r.2.1 ∧ t.server = r.2.2.server ∧ t.waiting = s.waiting := by
  intro r
  have hanswers : s.cache.Answers access now describe source w r.1 r.2.1 r.2.2 :=
    s.cache.entry_answers access now describe source w
  have waits : (s.ask describe task source).waiting task =
      some ⟨source, ⟨s.clock, (describe source s.server).1⟩⟩ := Function.update_self ..
  have released : Function.update (s.ask describe task source).waiting task none = s.waiting := by
    rw [waiting_ask, Function.update_idem, ← idle, Function.update_eq_self]
  generalize r.1 = answer, r.2.1 = cache, r.2.2 = w' at hanswers
  -- Without a store there is nothing that fails to be read, or that is loaded.
  cases hanswers with
  | cached known => exact ⟨_, _, _, .head _, .one (.hit idle known), rfl, hserver.symm, rfl⟩
  | unreadable _ fails =>
    obtain ⟨_, hstore, _⟩ := fails
    cases s.storeless.symm.trans hstore
  | loaded _ loads =>
    obtain ⟨_, _, hstore, _⟩ := loads
    cases s.storeless.symm.trans hstore
  | @undescribed e _ asks description server =>
    rw [hserver] at description server
    have failed : (⟨s.clock, (describe source s.server).1⟩ : Taking).metadata source.name =
        .error e := by rw [description, Taking.metadata_error]
    exact ⟨_, _, _, .tail _ (.head _), .snoc (.one (.miss idle asks.1)) (.fail waits failed), rfl,
      server.symm, released⟩
  | empty asks description server =>
    rw [hserver] at description server
    have failed : (⟨s.clock, (describe source s.server).1⟩ : Taking).metadata source.name =
        .error (.configuration (.noColumns source.name)) := by
      rw [description, Taking.metadata_ok, Metadata.ofColumns_eq_error_iff]
      exact ⟨rfl, rfl⟩
    exact ⟨_, _, _, .tail _ (.head _), .snoc (.one (.miss idle asks.1)) (.fail waits failed), rfl,
      server.symm, released⟩
  | @described _ m _ asks description derived server =>
    rw [hserver] at description server
    have made : (⟨s.clock, (describe source s.server).1⟩ : Taking).metadata source.name =
        .ok m := by rw [description, Taking.metadata_ok, derived]
    exact ⟨_, _, _, .tail _ (.head _), .snoc (.one (.miss idle asks.1)) (.finish waits made), rfl,
      server.symm, released⟩

/-! ### What a step does to the calls that wait and to what is known -/

/-- A call that waits after a step waited before it, unless it was started by it. -/
theorem Step.waiting_cases (h : s.Step describe label t) (waits : t.waiting task = some call) :
    s.waiting task = some call ∨ call.taking.moment = s.clock ∧
      label = .asked task call.source call.taking.description := by
  cases h with
  | hit | invalidate | reset | change => exact .inl waits
  | @miss other source =>
    rw [waiting_ask, Function.update_apply] at waits
    split at waits
    case isTrue htask =>
      obtain rfl := Option.some.inj waits
      exact .inr ⟨rfl, by rw [htask]⟩
    case isFalse => exact .inl waits
  | finish | fail =>
    simp only [waiting_put, waiting_release, Function.update_apply] at waits
    split at waits
    case isTrue => cases waits
    case isFalse => exact .inl waits

/-- What is known after a step was known before it and is not dropped by it, unless a call that
waited has put it into the cache. -/
theorem Step.known_cases (h : s.Step describe label t) (known : t.cache.cached name = some m) :
    (s.cache.cached name = some m ∧ t.origin name = s.origin name ∧ ¬ label.Drops name) ∨
      ∃ task call, s.waiting task = some call ∧ call.source.name = name ∧
        t.origin name = call.taking ∧ call.taking.metadata name = .ok m ∧
          label = .answered task ⟨name, call.taking.moment, call.taking, .ok m⟩ := by
  cases h with
  | hit | miss | fail | change => exact .inl ⟨known, rfl, id⟩
  | @finish task call m' waits made =>
    rw [put, Cache.cached_insert] at known
    split at known
    case isTrue hname =>
      -- The call has put its own columns there.
      obtain rfl := Option.some.inj known
      subst hname
      exact .inr ⟨task, call, waits, rfl, Function.update_self .., made, rfl⟩
    case isFalse hname => exact .inl ⟨known, Function.update_of_ne hname .., id⟩
  | invalidate dropped =>
    rw [SharedCache.invalidate, Cache.cached_invalidate] at known
    split at known
    case isTrue => cases known
    case isFalse hname => exact .inl ⟨known, rfl, Ne.symm hname⟩
  | reset => cases (OrderedMap.get?_empty name).symm.trans known

/-! ### Where the columns come from -/

/-- The columns in a state, in the light of all that has happened before. -/
structure Sound (labels : List (Label Task)) (s : SharedCache Task ι σ) : Prop where
  /-- Every step took one moment. -/
  clock_eq : s.clock = labels.length
  /-- A waiting call has the columns that the table had at its moment. -/
  waiting : ∀ task call, s.waiting task = some call →
    labels[call.taking.moment]? = some (.asked task call.source call.taking.description)
  /-- What is known is made of the columns that the table had at some moment. -/
  known : ∀ name m, s.cache.cached name = some m → (s.origin name).metadata name = .ok m ∧
    ∃ task source, source.name = name ∧
      labels[(s.origin name).moment]? = some (.asked task source (s.origin name).description)

omit [DecidableEq Task] in
/-- What has happened stays so. -/
theorem getElem?_snoc {i : Nat} {seen : Label Task} (h : labels[i]? = some seen) :
    (labels ++ [label])[i]? = some seen := by
  rw [List.getElem?_append_left (List.getElem?_eq_some_iff.1 h).1, h]

theorem Sound.step (sound : Sound labels s) (h : s.Step describe label t) :
    Sound (labels ++ [label]) t where
  clock_eq := by rw [h.clock_eq, sound.clock_eq, List.length_append, List.length_singleton]
  waiting task call waits := by
    rcases h.waiting_cases waits with waits | ⟨hmoment, hlabel⟩
    · exact getElem?_snoc (sound.waiting task call waits)
    · rw [hmoment, sound.clock_eq, hlabel, List.getElem?_concat_length]
  known name m known := by
    rcases h.known_cases known with
      ⟨known, horigin, -⟩ | ⟨task, call, waits, hname, horigin, made, -⟩
    · obtain ⟨made, task, source, hsource, hasked⟩ := sound.known name m known
      rw [horigin]
      exact ⟨made, task, source, hsource, getElem?_snoc hasked⟩
    · rw [horigin]
      exact ⟨made, task, call.source, hname, getElem?_snoc (sound.waiting task call waits)⟩

/-- The columns of every state that can be reached come from its history. -/
theorem Run.sound {keyPrefix : String} {server : σ}
    (h : (start keyPrefix server : SharedCache Task ι σ).Run describe labels s) :
    Sound labels s := by
  induction h with
  | nil =>
    exact {
      clock_eq := rfl
      waiting := fun _ _ waits => by cases waits
      known := fun name _ known => by cases (OrderedMap.get?_empty name).symm.trans known }
  | snoc _ step ih => exact ih.step step

/-! ### After a drop -/

/-- The call that took these columns of a source waits in a state, and afterwards it is answered and
puts what they make into the cache. -/
def PutBack (s : SharedCache Task ι σ) (later : List (Label Task)) (name : String)
    (taking : Taking) (m : Metadata) : Prop :=
  ∃ task call, s.waiting task = some call ∧ call.source.name = name ∧ call.taking = taking ∧
    .answered task ⟨name, taking.moment, taking, .ok m⟩ ∈ later

/-- Where calls and metadata of a source come from in a state that is reached after a drop: from
moments after it, or from calls that were waiting. -/
structure Since (dropped : SharedCache Task ι σ) (name : String) (later : List (Label Task))
    (s : SharedCache Task ι σ) : Prop where
  /-- The drop was before. -/
  clock_lt : dropped.clock < s.clock
  /-- A call that waits was started after the drop or waited already. -/
  waiting : ∀ task call, s.waiting task = some call →
    dropped.clock < call.taking.moment ∨ dropped.waiting task = some call
  /-- What is known was taken after the drop or has been put back. -/
  known : ∀ m, s.cache.cached name = some m →
    dropped.clock < (s.origin name).moment ∨ PutBack dropped later name (s.origin name) m

omit [DecidableEq Task] in
theorem PutBack.snoc {taking : Taking} (h : PutBack s labels name taking m) :
    PutBack s (labels ++ [label]) name taking m := by
  obtain ⟨task, call, waits, hname, htaking, hanswered⟩ := h
  exact ⟨task, call, waits, hname, htaking, List.mem_append_left _ hanswered⟩

/-- Nothing is known right after a drop, and no call is started by it. -/
theorem Step.since (h : s.Step describe label t) (drops : label.Drops name) :
    Since s name [] t where
  clock_lt := by rw [h.clock_eq]; exact Nat.lt_succ_self _
  waiting task call waits := by
    rcases h.waiting_cases waits with waits | ⟨-, rfl⟩
    · exact .inr waits
    · exact drops.elim
  known m known := by
    rcases h.known_cases known with ⟨-, -, hkeeps⟩ | ⟨_, _, _, _, _, _, rfl⟩
    · exact absurd drops hkeeps
    · exact drops.elim

theorem Since.step {dropped : SharedCache Task ι σ} (since : Since dropped name labels s)
    (h : s.Step describe label t) : Since dropped name (labels ++ [label]) t where
  clock_lt := by rw [h.clock_eq]; exact since.clock_lt.trans (Nat.lt_succ_self _)
  waiting task call waits := by
    rcases h.waiting_cases waits with waits | ⟨hmoment, -⟩
    · exact since.waiting task call waits
    · rw [hmoment]
      exact .inl since.clock_lt
  known m known := by
    rcases h.known_cases known with
      ⟨known, horigin, -⟩ | ⟨task, call, waits, hname, horigin, -, hlabel⟩
    · rw [horigin]
      exact (since.known m known).imp_right PutBack.snoc
    · -- The call that this step answers was started after the drop, or it waited at the drop.
      rw [horigin]
      refine (since.waiting task call waits).imp_right fun waited => ?_
      exact ⟨task, call, waited, hname, rfl, by simp [hlabel]⟩

theorem Since.run {dropped : SharedCache Task ι σ} (since : Since dropped name labels s)
    (h : s.Run describe labels' t) : Since dropped name (labels ++ labels') t := by
  induction h with
  | nil => rwa [List.append_nil]
  | snoc _ step ih =>
    rw [← List.append_assoc]
    exact ih.step step

/-! ### Answers after a drop -/

/-- The laws of an answer with metadata `m` to a call that is started after a drop, where `dropped`
is the state at the drop, `history` all that has happened and `later` what has happened since. -/
structure AnswerLaws (dropped : SharedCache Task ι σ) (history later : List (Label Task))
    (a : Answer) (m : Metadata) : Prop where
  /-- The answer is made of its columns. -/
  made : a.taking.metadata a.name = .ok m
  /-- They are the columns that the table had at their moment. -/
  taken : ∃ task source, source.name = a.name ∧
    history[a.taking.moment]? = some (.asked task source a.taking.description)
  /-- They were taken before the drop exactly if the call that took them was waiting at the drop and
  has put them back since. -/
  stale_iff : a.taking.moment < dropped.clock ↔ PutBack dropped later a.name a.taking m
  /-- If no call for the source was waiting at the drop then they were taken after it. -/
  fresh : (∀ task call, dropped.waiting task = some call → call.source.name ≠ a.name) →
    dropped.clock < a.taking.moment

/-- Calls that are started after a drop are answered in accordance with their laws, in every run of
any tasks over any tables. -/
theorem answer_after_drop {keyPrefix : String} {server : σ} {before later : List (Label Task)}
    {drop : Label Task} {s s' t t' : SharedCache Task ι σ} {a : Answer}
    (hbefore : (start keyPrefix server).Run describe before s) (hdrop : s.Step describe drop s')
    (hlater : s'.Run describe later t) (hanswer : t.Step describe (.answered task a) t')
    (hdrops : drop.Drops a.name) (hstarted : s.clock < a.started) (hok : a.metadata = .ok m) :
    AnswerLaws s (before ++ drop :: later) later a m := by
  have hrun : (start keyPrefix server).Run describe (before ++ drop :: later) t := by
    simpa using (hbefore.snoc hdrop).trans hlater
  -- A call that was waiting at the drop took its columns before.
  have hputBack : ∀ taking, PutBack s later a.name taking m → taking.moment < s.clock := by
    rintro _ ⟨task, call, waits, -, rfl, -⟩
    rw [hbefore.sound.clock_eq]
    exact (List.getElem?_eq_some_iff.1 (hbefore.sound.waiting task call waits)).1
  suffices h : a.taking.metadata a.name = .ok m ∧ (∃ task source, source.name = a.name ∧
      (before ++ drop :: later)[a.taking.moment]? =
        some (.asked task source a.taking.description)) ∧
      (s.clock < a.taking.moment ∨ PutBack s later a.name a.taking m) by
    obtain ⟨made, taken, hsince⟩ := h
    refine ⟨made, taken, ⟨fun hlt => ?_, hputBack _⟩, fun hnone => ?_⟩
    · exact hsince.resolve_left (Nat.lt_asymm hlt)
    · refine hsince.resolve_right ?_
      rintro ⟨task, call, waits, hname, -⟩
      exact hnone task call waits hname
  -- The call finds what is known, or it has waited since it was started after the drop.
  cases hanswer with
  | hit idle known =>
    obtain rfl := Except.ok.inj hok
    obtain ⟨made, taken⟩ := hrun.sound.known _ _ known
    exact ⟨made, taken, ((hdrop.since hdrops).run hlater).known _ known⟩
  | @finish _ call _ waits made =>
    obtain rfl := Except.ok.inj hok
    exact ⟨made, ⟨task, call.source, rfl, hrun.sound.waiting task call waits⟩, .inl hstarted⟩
  | fail => cases hok

/-- What a waiting call has taken can be put back, whatever has been dropped before and however the
tables change. The next call of its task is answered from it. -/
theorem exists_run_put (describe : Describe σ) (waits : s.waiting task = some call)
    (made : call.taking.metadata call.source.name = .ok m) (server : σ) :
    let name := call.source.name
    let answer : Answer := ⟨name, call.taking.moment, call.taking, .ok m⟩
    let t := (s.change server).put task call m
    s.Run describe [.changed, .answered task answer] t ∧ t.server = server ∧
      t.Step describe (.answered task { answer with started := s.clock + 2 }) t.tick := by
  intro name answer t
  have idle : t.waiting task = none := Function.update_self ..
  have known : t.cache.cached name = some m :=
    (Cache.cached_insert s.cache name name m).trans (if_pos rfl)
  have horigin : t.origin name = call.taking := Function.update_self ..
  have hanswer : t.Step describe (.answered task ⟨name, t.clock, t.origin name, .ok m⟩) t.tick :=
    .hit idle known
  rw [horigin] at hanswer
  exact ⟨.snoc (.one (.change server)) (.finish waits made), rfl, hanswer⟩

/-- A call takes the columns of a table and waits, the source is invalidated, the table gets another
column, and the call is answered. It has put the columns of before back, which is what the next call
is answered from. -/
theorem answer_after_drop_in_flight :
    let id : Column := ⟨"id", "bigint", true, true⟩
    let name : Column := ⟨"name", "text", false, false⟩
    let describe : Describe (List Column) := fun _ columns => (.ok columns, columns)
    let orders := Source.ofName "orders"
    let s : SharedCache Nat Unit (List Column) := (start "meta-" [id]).ask describe 0 orders
    let old : Taking := ⟨0, .ok [id]⟩
    let m : Metadata := ⟨["id"], ["id"], [], ["id"], some "id"⟩
    ∃ t later, (s.invalidate "orders").Run describe later t ∧ t.server = [id, name] ∧
      t.Step describe (.answered 0 ⟨"orders", 4, old, .ok m⟩) t.tick ∧
      PutBack s later "orders" old m ∧
      AnswerLaws s (.asked 0 orders (.ok [id]) :: .invalidated "orders" :: later) later
        ⟨"orders", 4, old, .ok m⟩ m := by
  intro id name describe orders s old m
  have waits : (s.invalidate "orders").waiting 0 = some ⟨orders, old⟩ := rfl
  have numeric : isNumericType "bigint" = true := by decide
  have made : old.metadata "orders" = .ok m := by
    simp [old, m, id, Metadata.ofColumns, Metadata.namesWhere, numeric]
  obtain ⟨hlater, hserver, hanswer⟩ := exists_run_put describe waits made [id, name]
  have laws := answer_after_drop (.one (.miss rfl rfl)) (.invalidate "orders") hlater hanswer rfl
    (by decide) rfl
  exact ⟨_, _, hlater, hserver, hanswer, ⟨0, _, waits, rfl, rfl, .tail _ (.head _)⟩, laws⟩

/-- Whether a call can be answered so after a drop, although it is started after the drop and the
columns of its answer were taken before it. -/
def Outlives (describe : Describe σ) (initial : SharedCache Task ι σ) (drop : Label Task)
    (a : Answer) : Prop :=
  ∃ before s s' later t task t', initial.Run describe before s ∧ s.Step describe drop s' ∧
    s'.Run describe later t ∧ t.Step describe (.answered task a) t' ∧ s.clock < a.started ∧
      a.taking.moment < s.clock

/-- Columns of a source outlive its invalidation with a call that waits, and columns of the same
table outlive it under the name of another source. -/
theorem outlives_drop :
    let id : Column := ⟨"id", "bigint", true, true⟩
    let describe : Describe (List Column) := fun _ columns => (.ok columns, columns)
    let initial : SharedCache Nat Unit (List Column) := start "meta-" [id]
    let m : Metadata := ⟨["id"], ["id"], [], ["id"], some "id"⟩
    Outlives describe initial (.invalidated "orders") ⟨"orders", 4, ⟨0, .ok [id]⟩, .ok m⟩ ∧
      Outlives describe initial (.invalidated "orders") ⟨"archive", 6, ⟨2, .ok [id]⟩, .ok m⟩ := by
  intro id describe initial m
  have numeric : isNumericType "bigint" = true := by decide
  have made : ∀ moment name, (⟨moment, .ok [id]⟩ : Taking).metadata name = .ok m := by
    simp [m, id, Metadata.ofColumns, Metadata.namesWhere, numeric]
  refine ⟨?_, ?_⟩
  · -- The call waits while the source is invalidated and the table changes.
    let s := initial.ask describe 0 (Source.ofName "orders")
    have waits : (s.invalidate "orders").waiting 0 =
      some ⟨Source.ofName "orders", ⟨0, .ok [id]⟩⟩ := rfl
    obtain ⟨hlater, -, hanswer⟩ := exists_run_put describe waits (made _ _)
      [id, ⟨"name", "text", false, false⟩]
    exact ⟨_, s, _, _, _, _, _, .one (.miss rfl rfl), .invalidate "orders", hlater, hanswer,
      by decide, by decide⟩
  · -- Nothing waits: both sources are known, and one of them is invalidated.
    let archive : Source := ⟨"archive", "orders", none⟩
    let orders : Waiting := ⟨Source.ofName "orders", ⟨0, .ok [id]⟩⟩
    let s₁ := (initial.ask describe 0 orders.source).put 0 orders m
    let s₂ := (s₁.ask describe 0 archive).put 0 ⟨archive, ⟨2, .ok [id]⟩⟩ m
    let s₃ := s₂.change [id, ⟨"name", "text", false, false⟩]
    have h₁ : initial.Run describe _ s₁ := .snoc (.one (.miss rfl rfl)) (.finish rfl (made _ _))
    have h₂ : s₁.Run describe _ s₂ := .snoc (.one (.miss rfl rfl)) (.finish rfl (made _ _))
    have h₃ : s₂.Run describe _ s₃ := .one (.change _)
    have known : (s₃.invalidate "orders").cache.cached archive.name = some m := rfl
    exact ⟨_, s₃, _, _, _, 0, _, (h₁.trans h₂).trans h₃, .invalidate "orders", .nil,
      .hit rfl known, by decide, by decide⟩

end SharedCache

end BoundSql
