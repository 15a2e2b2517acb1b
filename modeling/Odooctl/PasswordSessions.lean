import Mathlib.Data.List.Induction
import Odooctl.UserAccounts

/-!
# Sessions that a password change ends

Every operation is logged with its answer, and the live sessions are those that the session
changes of the log leave, each with the position at which it was saved.
-/
namespace PasswordSessions

open EffectPrograms InterleavedPrograms UserAccounts

/-- An operation of a request and its answer. -/
structure Event (ι : Type) where
  request : ι
  call : AuthCall
  answer : call.Answer

structure Traced (ι : Type) where
  stores : Stores
  log : List (Event ι)

def tracedWorld {ι : Type} (verify_password : String → String → Bool) (i : ι) :
    World Auth (Traced ι) := fun o s r t =>
  storeWorld verify_password o s.stores r t.stores ∧ t.log = s.log ++ [⟨i, o, r⟩]

/-! ## Sessions by the operation that saved them -/

/-- `saved` is no position for a session that was there at the start. -/
structure Live where
  record : SessionRecord
  saved : Option ℕ
  deriving DecidableEq

def keeps : SessionChange → SessionRecord → Bool
  | .create record, r => r.expires_at > record.created_at
  | .revoke sid_hash, r => r.sid_hash ≠ sid_hash
  | .revoke_user user_id keep_hash, r => r.user_id ≠ user_id || some r.sid_hash = keep_hash

def adds : SessionChange → List SessionRecord
  | .create record => [record]
  | _ => []

theorem apply_eq (change : SessionChange) (sessions : List SessionRecord) :
    change.apply sessions = sessions.filter (keeps change) ++ adds change := by
  cases change with
  | create record => rfl
  | revoke | revoke_user => exact (List.append_nil _).symm

def track (n : ℕ) (live : List Live) : AuthCall → List Live
  | .change_sessions change => live.filter (fun x => keeps change x.record) ++
      (adds change).map fun record => ⟨record, some n⟩
  | _ => live

section Replay

variable {ι : Type}

/-- The live sessions after a log whose first operation has position `n`. -/
def replay (n : ℕ) (live : List Live) : List (Event ι) → List Live
  | [] => live
  | e :: rest => replay (n + 1) (track n live e.call) rest

def live_sessions (start : List SessionRecord) (log : List (Event ι)) : List Live :=
  replay 0 (start.map fun record => ⟨record, none⟩) log

theorem replay_append (n : ℕ) (live : List Live) (log : List (Event ι)) (e : Event ι) :
    replay n live (log ++ [e]) = track (n + log.length) (replay n live log) e.call := by
  induction log generalizing n live with
  | nil => rfl
  | cons first rest ih =>
    rw [List.cons_append, replay, replay, ih, List.length_cons]
    congr 1
    omega

variable {start : List SessionRecord} {log : List (Event ι)} {e : Event ι}

theorem live_sessions_append : live_sessions start (log ++ [e]) =
    track log.length (live_sessions start log) e.call := by
  rw [live_sessions, replay_append, Nat.zero_add, live_sessions]

/-- A session is live after an operation that keeps it or that saves it. -/
theorem mem_track {n : ℕ} {live : List Live} {call : AuthCall} {x : Live}
    (h : x ∈ track n live call) :
    (x ∈ live ∧ ∀ change, call = .change_sessions change → keeps change x.record = true) ∨
    (x.saved = some n ∧ call = .change_sessions (.create x.record)) := by
  cases call with
  | change_sessions change =>
    rcases List.mem_append.mp h with h | h
    · obtain ⟨hlive, hkept⟩ := List.mem_filter.mp h
      refine .inl ⟨hlive, ?_⟩
      intro other hother
      obtain rfl := AuthCall.change_sessions.inj hother
      exact hkept
    · obtain ⟨record, hrecord, rfl⟩ := List.mem_map.mp h
      cases change with
      | create new =>
        obtain rfl := List.mem_singleton.mp hrecord
        exact .inr ⟨rfl, rfl⟩
      | revoke | revoke_user => cases hrecord
  | check_backoff | record_failure | clear_failures | time | utcnow | token_urlsafe
  | hash_password | verify_password | load_users | change_users | respond =>
    exact .inl ⟨h, fun _ h => nomatch h⟩

theorem append_singleton_get {c : ℕ} {last : Event ι} (hc : (log ++ [last])[c]? = some e) :
    (c = log.length ∧ last = e) ∨ (c < log.length ∧ log[c]? = some e) := by
  by_cases hlast : c = log.length
  · rw [hlast, List.getElem?_concat_length] at hc
    exact .inl ⟨hlast, Option.some.inj hc⟩
  · have hlen := (List.getElem?_eq_some_iff.mp hc).1
    rw [List.length_append, List.length_singleton] at hlen
    have hlt : c < log.length := by omega
    rw [List.getElem?_append_left hlt] at hc
    exact .inr ⟨hlt, hc⟩

/-- What is live after the sessions of a user were deleted was saved later, or was kept. -/
theorem saved_after_deletion {c : ℕ} {user_id : String} {keep : Option String} {x : Live}
    (hc : log[c]? = some e) (he : e.call = .change_sessions (.revoke_user user_id keep))
    (hx : x ∈ live_sessions start log) (huser : x.record.user_id = user_id)
    (hkeep : some x.record.sid_hash ≠ keep) : ∃ d, x.saved = some d ∧ c < d := by
  induction log using List.reverseRecOn with
  | nil => cases hc
  | append_singleton log last ih =>
    rw [live_sessions_append] at hx
    rcases append_singleton_get hc with ⟨-, rfl⟩ | ⟨hlt, hc⟩
    · rcases mem_track hx with ⟨-, hkept⟩ | ⟨-, hcreate⟩
      · have hout := hkept _ he
        simp [keeps, huser, hkeep] at hout
      · rw [he] at hcreate
        cases hcreate
    · rcases mem_track hx with ⟨hlive, -⟩ | ⟨hnew, -⟩
      · exact ih hc hlive
      · exact ⟨_, hnew, hlt⟩

/-- A session that was saved during the run was saved by the operation at its position. -/
theorem saved_by {d : ℕ} {x : Live} (hx : x ∈ live_sessions start log) (hd : x.saved = some d) :
    ∃ e, log[d]? = some e ∧ e.call = .change_sessions (.create x.record) := by
  induction log using List.reverseRecOn with
  | nil =>
    obtain ⟨record, -, rfl⟩ := List.mem_map.mp hx
    cases hd
  | append_singleton log last ih =>
    rw [live_sessions_append] at hx
    rcases mem_track hx with ⟨hlive, -⟩ | ⟨hnew, hcreate⟩
    · obtain ⟨e, he, hcall⟩ := ih hlive
      have hlt := (List.getElem?_eq_some_iff.mp he).1
      exact ⟨e, (List.getElem?_append_left hlt).trans he, hcall⟩
    · obtain rfl := Option.some.inj (hd.symm.trans hnew)
      exact ⟨last, List.getElem?_concat_length, hcreate⟩

end Replay

/-! ## What a password change logs -/

section Changes

variable {ι : Type}

/-- The account whose password a request changes and the session that the change keeps. -/
def password_change (digest : String → String) (caller : Caller) :
    Request → Option (String × Option String)
  | .change_password _ _ => caller.session_user_id.map fun user_id =>
    (user_id, (caller.session_sid.filter (· ≠ "")).map digest)
  | .reset_password user_id _ => some (user_id, none)
  | _ => none

def Written (log : List (Event ι)) (i : ι) (user_id : String) (written : ℕ) : Prop :=
  ∃ password_hash now updated, log[written]? = some
    ⟨i, .change_users (.password user_id password_hash now), Except.ok updated⟩

def Deleted (log : List (Event ι)) (i : ι) (user_id : String) (keep : Option String)
    (deleted : ℕ) : Prop :=
  log[deleted]? = some ⟨i, .change_sessions (.revoke_user user_id keep), ()⟩

/-- The new password has been written and after that the sessions were deleted. -/
def Changed (log : List (Event ι)) (i : ι) (user_id : String) (keep : Option String) : Prop :=
  ∃ written deleted, written < deleted ∧ Written log i user_id written ∧
    Deleted log i user_id keep deleted

variable {log log' : List (Event ι)} {i : ι} {user_id : String} {keep : Option String}

theorem prefix_get {e : Event ι} {n : ℕ} (h : log <+: log') (hn : log[n]? = some e) :
    log'[n]? = some e := by
  obtain ⟨rest, rfl⟩ := h
  exact (List.getElem?_append_left (List.getElem?_eq_some_iff.mp hn).1).trans hn

theorem Written.mono {written : ℕ} (h : Written log i user_id written) (hlog : log <+: log') :
    Written log' i user_id written := by
  obtain ⟨password_hash, now, updated, h⟩ := h
  exact ⟨password_hash, now, updated, prefix_get hlog h⟩

theorem Changed.mono (h : Changed log i user_id keep) (hlog : log <+: log') :
    Changed log' i user_id keep := by
  obtain ⟨written, deleted, hlt, hw, hd⟩ := h
  exact ⟨written, deleted, hlt, hw.mono hlog, prefix_get hlog hd⟩

end Changes

/-! ## One request among the others -/

section Requests

variable {ι : Type}

/-- The log only grows, and what its session changes leave is what the store holds. -/
def logging (start : List SessionRecord) : Contract (fun _ : ι => Auth) (Traced ι) where
  invariant := fun s => (live_sessions start s.log).map Live.record = s.stores.sessions
  rely := fun _ s t => s.log <+: t.log
  guard := fun _ _ _ => True
  rely_refl := fun _ s => List.prefix_refl s.log
  rely_trans := fun _ _ _ _ h k => h.trans k

theorem map_track (n : ℕ) (live : List Live) (change : SessionChange) :
    (track n live (.change_sessions change)).map Live.record =
      change.apply (live.map Live.record) := by
  rw [apply_eq, track, List.map_append, List.map_map, List.filter_map]
  exact congrArg _ (List.map_id _)

variable {start : List SessionRecord} {verify_password : String → String → Bool}
  {digest : String → String}

theorem requests_honour : (logging (ι := ι) start).Honoured (tracedWorld verify_password) := by
  intro i o s r t hs _ hw
  obtain ⟨hw, hlog⟩ := hw
  have hinv : (live_sessions start s.log).map Live.record = s.stores.sessions := hs
  refine ⟨?_, fun _ _ => ⟨_, hlog.symm⟩⟩
  change (live_sessions start t.log).map Live.record = t.stores.sessions
  rw [hlog, live_sessions_append]
  have hother : t.stores.sessions = s.stores.sessions →
      (live_sessions start s.log).map Live.record = t.stores.sessions :=
    fun h => hinv.trans h.symm
  cases o with
  | change_sessions change =>
    have heq : t.stores = s.stores.with_sessions _ := hw
    rw [map_track, hinv, heq]
    rfl
  | load_users | verify_password => exact hother (congrArg Stores.sessions hw.2)
  | check_backoff | record_failure | clear_failures | time | utcnow | token_urlsafe
  | hash_password | respond => exact hother (congrArg Stores.sessions hw)
  | change_users change =>
    rcases hw with ⟨id, users, updated, -, -, -, heq⟩ | ⟨-, heq⟩
    · exact hother (by rw [heq])
    · exact hother (by rw [heq])

variable {i : ι} {s : Traced ι} {α : Type} {user_id : String} {keep : Option String}

abbrev met (start : List SessionRecord) (verify_password : String → String → Bool) (i : ι) :
    World Auth (Traced ι) := (logging start).around (tracedWorld verify_password) i

abbrev unguarded (start : List SessionRecord) (i : ι) : AuthCall → Traced ι → Prop :=
  (logging start).guard i

/-- After an operation the log has it, with its answer. -/
theorem wp_logs {o : AuthCall} {reply : o.Answer → Except AuthFailure α}
    {R : Except AuthFailure α → Traced ι → Prop}
    (h : ∀ r t u, storeWorld verify_password o s.stores r u → s.log <+: t.log →
      t.log[s.log.length]? = some ⟨i, o, r⟩ → R (reply r) t) :
    wp (met start verify_password i) (unguarded start i) (.perform (F := Auth) o reply) R s := by
  apply Contract.wp_perform (C := logging start) (o := o) trivial
  intro r u hw t hrely _
  obtain ⟨hw, hlog⟩ := hw
  have hprefix : u.log <+: t.log := hrely
  rw [hlog] at hprefix
  exact h r t u.stores hw ((List.prefix_append _ _).trans hprefix)
    (prefix_get hprefix List.getElem?_concat_length)

theorem wp_get_user : wp (met start verify_password i) (unguarded start i) (get_user user_id)
    (fun r _ => ∀ user, r = .ok user → user.id = user_id) s := by
  unfold get_user
  apply wp_bind'.mpr
  apply wp_logs
  intro users t u hw _ _
  dsimp only
  cases hfind : find_user users user_id with
  | none => exact fun _ h => nomatch h
  | some found =>
    intro user huser
    obtain rfl := Except.ok.inj huser
    exact (find_user_some hfind).2

theorem wp_set_password {password : String} :
    wp (met start verify_password i) (unguarded start i) (set_password user_id password)
      (fun r t => r = .ok () → ∃ written, Written t.log i user_id written) s := by
  unfold set_password validate_password
  apply wp_bind'.mpr
  split
  · exact fun h => nomatch h
  apply wp_bind'.mpr
  apply wp_logs
  intro password_hash t₁ _ _ _ _
  apply wp_bind'.mpr
  apply wp_logs
  intro now t₂ _ _ _ _
  apply wp_bind'.mpr
  apply wp_logs
  intro result t _ _ _ hlogged
  cases result with
  | error e => exact fun h => nomatch h
  | ok updated => exact fun _ => ⟨_, password_hash, now, updated, hlogged⟩

/-- A request that has written the password and deletes the sessions. -/
theorem wp_revoke_user {keep_sid : Option String}
    (hkeep : keep = (keep_sid.filter (· ≠ "")).map digest)
    (hwritten : ∃ written, Written s.log i user_id written) :
    wp (met start verify_password i) (unguarded start i) (revoke_user digest user_id keep_sid)
      (fun _ t => Changed t.log i user_id keep) s := by
  apply wp_logs
  intro _ t _ _ hlog hlogged
  obtain ⟨written, hwritten⟩ := hwritten
  refine ⟨written, s.log.length, ?_, hwritten.mono hlog, ?_⟩
  · obtain ⟨password_hash, now, updated, h⟩ := hwritten
    exact (List.getElem?_eq_some_iff.mp h).1
  · rw [Deleted, hlogged, hkeep]
    cases keep_sid with
    | none => rfl
    | some sid =>
      by_cases hsid : sid = ""
      · simp [hsid]
      · simp [hsid, Option.filter]

/-- What a password change does once it has checked who asks. -/
theorem wp_write_and_revoke {password : String} {keep_sid : Option String}
    {f : AuthFailure → AuthFailure} (hkeep : keep = (keep_sid.filter (· ≠ "")).map digest) :
    wp (met start verify_password i) (unguarded start i) (do
      (set_password user_id password).mapError f
      revoke_user digest user_id keep_sid)
      (fun r t => r = .ok () → Changed t.log i user_id keep) s := by
  apply wp_bind'.mpr
  apply wp_mapError.mpr
  apply wp_post wp_set_password
  intro r t hwritten
  cases r with
  | error e => exact fun h => nomatch h
  | ok _ =>
    apply wp_post (wp_revoke_user hkeep (hwritten rfl))
    exact fun _ _ h _ => h

variable {caller : Caller} {request : Request}

theorem wp_endpoint (hchange : password_change digest caller request = some (user_id, keep)) :
    wp (met start verify_password i) (unguarded start i) (endpoint digest caller request)
      (fun r t => r = .ok () → Changed t.log i user_id keep) s := by
  cases request with
  | login | logout | create_user | patch_user | delete_user => cases hchange
  | change_password current_password new_password =>
    unfold endpoint change_password
    cases huser : caller.session_user_id with
    | none =>
      rw [password_change, huser] at hchange
      cases hchange
    | some id =>
      rw [password_change, huser] at hchange
      obtain ⟨rfl, hkeep⟩ := Prod.mk.inj (Option.some.inj hchange)
      apply wp_bind'.mpr
      apply wp_post wp_get_user
      intro r t hfound
      cases r with
      | error e => exact fun h => nomatch h
      | ok user =>
        apply wp_bind'.mpr
        apply wp_logs
        intro verified t' _ _ _ _
        cases verified with
        | false => exact fun h => nomatch h
        | true =>
          rw [hfound user rfl]
          exact wp_write_and_revoke hkeep.symm
  | reset_password id new_password =>
    obtain ⟨rfl, hkeep⟩ := Prod.mk.inj (Option.some.inj hchange)
    unfold endpoint reset_password load_target
    apply wp_bind'.mpr
    apply wp_mapError.mpr
    apply wp_post wp_get_user
    intro r t hfound
    cases r with
    | error e => exact fun h => nomatch h
    | ok target =>
      apply wp_bind'.mpr
      apply wp_post (wp_true _ _)
      intro r' t' _
      cases r' with
      | error e => exact fun h => nomatch h
      | ok _ =>
        rw [hfound target rfl]
        exact wp_write_and_revoke hkeep.symm

theorem wp_handle (hchange : password_change digest caller request = some (user_id, keep)) :
    wp (met start verify_password i) (unguarded start i) (handle digest caller request)
      (fun r t => r = .ok () → Changed t.log i user_id keep) s := by
  unfold handle Prog.ensuring
  apply wp_bind.mpr
  apply wp_attempt.mpr
  apply wp_post (wp_endpoint hchange)
  intro r t hchanged
  apply wp_bind.mpr
  apply wp_logs
  intro _ t' _ _ hlog _
  apply wp_ofExcept.mpr
  intro hr
  exact (hchanged hr).mono hlog

end Requests

section Sessions

variable {ι : Type} [DecidableEq ι]

/-- Once a password change has returned, every stored session of the user was saved after the
change had deleted the user's sessions, or it is the one the change was made from. -/
theorem earlier_sessions_ended (digest : String → String)
    (verify_password : String → String → Bool) (callers : ι → Caller) (requests : ι → Request)
    {s t : Traced ι} (hs : s.log = []) {qs : Requests ι}
    (hrun : Interleaved (tracedWorld verify_password) s (received digest callers requests) t qs)
    {i : ι} {user_id : String} {keep : Option String}
    (hchange : password_change digest (callers i) (requests i) = some (user_id, keep))
    (hreturned : qs i = .pure ()) :
    (live_sessions s.stores.sessions t.log).map Live.record = t.stores.sessions ∧
    ∃ written deleted, written < deleted ∧ Written t.log i user_id written ∧
      Deleted t.log i user_id keep deleted ∧
      ∀ session ∈ live_sessions s.stores.sessions t.log, session.record.user_id = user_id →
        some session.record.sid_hash ≠ keep → ∃ saved login, session.saved = some saved ∧
          deleted < saved ∧
          t.log[saved]? = some ⟨login, .change_sessions (.create session.record), ()⟩ := by
  have hstart : (logging s.stores.sessions).Holds (tracedWorld verify_password)
      (fun j r t => ∀ id k, password_change digest (callers j) (requests j) = some (id, k) →
        r = .ok () → Changed t.log j id k) s (received digest callers requests) := by
    refine ⟨?_, ?_⟩
    · change (live_sessions s.stores.sessions s.log).map Live.record = s.stores.sessions
      rw [hs, live_sessions, replay, List.map_map]
      exact List.map_id _
    · intro j u _ _
      cases hj : password_change digest (callers j) (requests j) with
      | none =>
        apply wp_post (wp_true _ _)
        intro r v _ id k h
        cases h
      | some change =>
        apply wp_post (wp_handle hj)
        intro r v hchanged id k h
        obtain rfl := Option.some.inj h
        exact hchanged
  have hend := hstart.run requests_honour hrun
  obtain ⟨written, deleted, hlt, hwritten, hdeleted⟩ :=
    hend.ended (r := .ok ()) hreturned user_id keep hchange rfl
  refine ⟨hend.invariant, written, deleted, hlt, hwritten, hdeleted, ?_⟩
  intro session hsession huser hkeep
  obtain ⟨saved, hsaved, hafter⟩ := saved_after_deletion hdeleted rfl hsession huser hkeep
  obtain ⟨⟨login, call, answer⟩, hlogin, hcall⟩ := saved_by hsession hsaved
  change call = _ at hcall
  subst hcall
  exact ⟨saved, login, hsaved, hafter, hlogin⟩

end Sessions

/-! ## The session that the change was made from -/

structure TracedDesk where
  desk : Desk
  log : List (Event Bool)

def TracedDesk.traced (s : TracedDesk) : Traced Bool := ⟨s.desk.stores, s.log⟩

def TracedDesk.serve (i : Bool) (o : Auth.Op) (s : TracedDesk) : Auth.Reply o × TracedDesk :=
  ((Desk.serve o s.desk).1, ⟨(Desk.serve o s.desk).2, s.log ++ [⟨i, o, (Desk.serve o s.desk).1⟩]⟩)

theorem tracedWorld_serve (i : Bool) (o : Auth.Op) (s : TracedDesk) :
    tracedWorld Desk.verify_password i o s.traced (s.serve i o).1 (s.serve i o).2.traced :=
  ⟨Desk.storeWorld_serve o s.desk, rfl⟩

def operatorCaller : Caller where
  principal := ⟨"operator@example.com", .user, [.operator]⟩
  session_user_id := some "0"
  session_sid := some "1"

/-- A login, and a password change from the session it creates. -/
def exampleRequests : Bool → Request
  | false => .login "operator@example.com" "old password"
  | true => .change_password "old password" "new password"

/-- The account has a session from another browser. -/
def exampleStart : TracedDesk where
  desk :=
    { users := [{ id := "0", email := "operator@example.com", password_hash := "hold password" }]
      sessions := [⟨"0", "0", 0, 3600⟩]
      ids := ["0"] }
  log := []

def exampleReceived : Requests Bool := received id (fun _ => operatorCaller) exampleRequests

def exampleTurns : List Bool := List.replicate 8 false ++ List.replicate 7 true

def exampleEnd : Requests Bool × TracedDesk :=
  Pool.turns TracedDesk.serve exampleTurns exampleReceived exampleStart

def newSession : SessionRecord := ⟨"1", "0", 0, DEFAULT_SESSION_TTL_SECONDS⟩

def exampleCalls : List (Bool × AuthCall) :=
  [(false, .check_backoff "operator@example.com"),
    (false, .load_users),
    (false, .verify_password "hold password" "old password"),
    (false, .clear_failures "operator@example.com"),
    (false, .token_urlsafe),
    (false, .time),
    (false, .change_sessions (.create newSession)),
    (false, .respond),
    (true, .load_users),
    (true, .verify_password "hold password" "old password"),
    (true, .hash_password "new password"),
    (true, .utcnow),
    (true, .change_users (.password "0" "hnew password" "2026-01-01T00:00:00+00:00")),
    (true, .change_sessions (.revoke_user "0" (some "1"))),
    (true, .respond)]

def returned (p : AuthM Unit) : Bool :=
  match p with
  | .pure _ => true
  | _ => false

theorem eq_pure_of_returned {p : AuthM Unit} (h : returned p = true) : p = .pure () := by
  cases p with
  | pure a => rfl
  | raise e => cases h
  | call o k => cases h

theorem example_facts :
    Pool.every TracedDesk.serve (fun _ _ _ => true) exampleTurns exampleReceived exampleStart = true ∧
    returned (exampleEnd.1 false) = true ∧ returned (exampleEnd.1 true) = true ∧
    exampleEnd.2.log.map (fun e => (e.request, e.call)) = exampleCalls ∧
    exampleEnd.2.desk.sessions = [newSession] := by
  decide +kernel

theorem example_run : Interleaved (tracedWorld Desk.verify_password) exampleStart.traced
    exampleReceived exampleEnd.2.traced exampleEnd.1 :=
  interleaved_turns TracedDesk.traced (fun i o s _ => tracedWorld_serve i o s) example_facts.1

/-- The session of the login with the old password is stored after the change has returned. -/
theorem own_session_kept : ∃ (t : Traced Bool) (qs : Requests Bool),
    Interleaved (tracedWorld Desk.verify_password) exampleStart.traced exampleReceived t qs ∧
    (∀ i, qs i = .pure ()) ∧ t.log.map (fun e => (e.request, e.call)) = exampleCalls ∧
    newSession ∈ t.stores.sessions := by
  obtain ⟨-, hlogin, hchange, hcalls, hsessions⟩ := example_facts
  refine ⟨exampleEnd.2.traced, exampleEnd.1, example_run, ?_, hcalls, ?_⟩
  · intro i
    cases i with
    | false => exact eq_pure_of_returned hlogin
    | true => exact eq_pure_of_returned hchange
  · have hmem : newSession ∈ exampleEnd.2.desk.sessions := by
      rw [hsessions]
      exact List.mem_singleton_self _
    exact hmem

theorem other_session_ended :
    ∃ deleted, Deleted exampleEnd.2.log true "0" (some "1") deleted ∧
      ∀ session ∈ live_sessions [⟨"0", "0", 0, 3600⟩] exampleEnd.2.log,
        session.record.user_id = "0" → some session.record.sid_hash ≠ some "1" →
        ∃ saved, session.saved = some saved ∧ deleted < saved := by
  obtain ⟨-, written, deleted, -, -, hdeleted, hsessions⟩ :=
    earlier_sessions_ended id Desk.verify_password (fun _ => operatorCaller) exampleRequests
      (i := true) rfl example_run rfl (eq_pure_of_returned example_facts.2.2.1)
  refine ⟨deleted, hdeleted, ?_⟩
  intro session hlive huser hkeep
  obtain ⟨saved, -, hsaved, hafter, -⟩ := hsessions session hlive huser hkeep
  exact ⟨saved, hsaved, hafter⟩

end PasswordSessions
