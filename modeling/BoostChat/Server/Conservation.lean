import BoostChat.Server.Authenticity
import BoostChat.Server.Reader

/-!
# No message is lost on the way in

What a session has sent is, in the order in which it has sent it, what its attempts to log
in have used up, then what has been handed to `OnMessage`, then what still waits in its
queues. Nothing is lost, repeated or overtaken between the socket and the handlers, up to
the sender, which the server writes itself.

* `LineEffect` — what a step does to the line of one session;
* `Conserved` — the invariant; the last of the attempts of an admitted session is the
  message that it was admitted with;
* `dispatch_conservation` — the invariant after any run.
-/

namespace BoostChat.Server

open Lib

/-- The messages of a session in a log that begins with the newest one, oldest first. -/
def ofSession (u : SessionRef) (log : List (SessionRef × ChatMessage)) : List ChatMessage :=
  (log.reverse.filter fun p => p.1 == u).map fun p => p.2.withoutSender

theorem ofSession_cons_self (u : SessionRef) (msg : ChatMessage)
    (log : List (SessionRef × ChatMessage)) :
    ofSession u ((u, msg) :: log) = ofSession u log ++ [msg.withoutSender] := by
  simp [ofSession]

theorem ofSession_cons_of_ne {u v : SessionRef} (h : u ≠ v) (msg : ChatMessage)
    (log : List (SessionRef × ChatMessage)) :
    ofSession v ((u, msg) :: log) = ofSession v log := by
  simp [ofSession, h]

/-- Whatever is in a log is among the messages of its session. -/
theorem mem_ofSession {p : SessionRef × ChatMessage} {log : List (SessionRef × ChatMessage)}
    (h : p ∈ log) : p.2.withoutSender ∈ ofSession p.1 log := by
  exact List.mem_map.mpr ⟨p, by simp [h], rfl⟩

theorem exists_of_mem_ofSession {u : SessionRef} {msg : ChatMessage}
    {log : List (SessionRef × ChatMessage)} (h : msg ∈ ofSession u log) :
    ∃ sent, (u, sent) ∈ log ∧ sent.withoutSender = msg := by
  obtain ⟨⟨v, sent⟩, hmem, rfl⟩ := List.mem_map.mp h
  rw [List.mem_filter, List.mem_reverse, beq_iff_eq] at hmem
  obtain ⟨hlog, rfl⟩ := hmem
  exact ⟨sent, hlog, rfl⟩

variable {parse : Bytes → Option ChatMessage} {s t : Sys} {a : Action}

/-- What still waits in the queues of a session. -/
def Sys.waiting (s : Sys) (u : SessionRef) : List ChatMessage :=
  (s.srv.sessions u).pending.map ChatMessage.withoutSender

/-! ## The line of one session -/

/-- What a step does to the messages of the session `v`. -/
inductive LineEffect (s : Sys) (a : Action) (t : Sys) (v : SessionRef) : Prop
  | kept (hadmitted : ∀ l ∈ t.admitted, l.session = v → l ∈ s.admitted)
      (hreceived : ofSession v t.received = ofSession v s.received)
      (hdispatched : ofSession v t.dispatched = ofSession v s.dispatched)
      (hwaiting : t.waiting v = s.waiting v)
  | fresh (hv : v = s.srv.nextSession) (hadmitted : t.admitted = s.admitted)
      (hreceived : t.received = s.received) (hdispatched : t.dispatched = s.dispatched)
      (hwaiting : t.waiting v = [])
  /-- A message arrives and joins the end of the line. -/
  | arrived (hv : v < s.srv.nextSession) (hadmitted : t.admitted = s.admitted) {m : ChatMessage}
      (hreceived : ofSession v t.received = ofSession v s.received ++ [m])
      (hdispatched : t.dispatched = s.dispatched) (hwaiting : t.waiting v = s.waiting v ++ [m])
  /-- The head of the line does not log in, or there is none. -/
  | rejected (hv : v ∈ s.srv.newUsers) (hreceived : t.received = s.received)
      (hdispatched : t.dispatched = s.dispatched) (hadmitted : t.admitted = s.admitted)
      (hwaiting : t.waiting v = (s.waiting v).tail)
  /-- The head of the line logs in. -/
  | admitted {env : Env} {l : Login} {m : ChatMessage} (hv : v ∈ s.srv.newUsers)
      (hreceived : t.received = s.received) (hdispatched : t.dispatched = s.dispatched)
      (hadmitted : t.admitted = l :: s.admitted) (hl : l.session = v)
      (hidentify : identify env m.content = some (l.id, l.userEntity))
      (hwaiting : s.waiting v = m :: t.waiting v)
  /-- The head of the line is handed to `OnMessage`. -/
  | served {m : ChatMessage} (hv : s.current = some v) (hadmitted : t.admitted = s.admitted)
      (hreceived : t.received = s.received)
      (hdispatched : ofSession v t.dispatched = ofSession v s.dispatched ++ [m])
      (hwaiting : s.waiting v = m :: t.waiting v)

/-- A step that leaves the session's queues, and both logs, as they were. -/
theorem LineEffect.of_pending {v : SessionRef} (hreceived : t.received = s.received)
    (hdispatched : t.dispatched = s.dispatched)
    (hadmitted : ∀ l ∈ t.admitted, l.session = v → l ∈ s.admitted)
    (hpending : (t.srv.sessions v).pending = (s.srv.sessions v).pending) : LineEffect s a t v :=
  .kept hadmitted (by rw [hreceived]) (by rw [hdispatched])
    (by rw [Sys.waiting, Sys.waiting, hpending])

/-- The messages of a body, as the log and the queue get them. -/
theorem receive_line {u v : SessionRef} {body : Bytes} (hknown : u < s.srv.nextSession) :
    LineEffect s a { s with
      srv := s.srv.setSession u ((s.srv.sessions u).readBody parse body)
      received := ((parse body).toList.map fun msg => (u, msg)) ++ s.received } v := by
  cases hparse : parse body with
  | none =>
    -- a body that does not parse changes nothing
    refine .of_pending rfl rfl (fun _ hl _ => hl) ?_
    have hsame : (s.srv.sessions u).readBody parse body = s.srv.sessions u := by
      rw [UserSession.readBody, hparse]
    exact TcpServer.setSession_congr (·.pending) (by rw [hsame]) v
  | some msg =>
    by_cases hv : v = u
    · subst hv
      refine .arrived hknown rfl (m := msg.withoutSender) (ofSession_cons_self v msg _) rfl ?_
      rw [Sys.waiting, Sys.waiting, TcpServer.setSession_sessions_self, UserSession.readBody_eq,
        hparse, UserSession.withQueues_pending, UserSession.pending, ← List.append_assoc,
        List.map_append]
      rfl
    · refine .kept (fun _ hl _ => hl) (ofSession_cons_of_ne (Ne.symm hv) msg _) rfl ?_
      rw [Sys.waiting, Sys.waiting, TcpServer.setSession_sessions_of_ne _ _ hv]

/-- **Step lemma for one line.** -/
theorem step_line (h : Admission s) (heffect : Effect parse s a t) (v : SessionRef) :
    LineEffect s a t v := by
  cases heffect with
  | accept =>
    by_cases hv : v = s.srv.nextSession
    · refine .fresh hv rfl rfl rfl ?_
      subst hv
      rw [Sys.waiting, TcpServer.onAccept]
      simp [UserSession.start, UserSession.pending]
    · refine .of_pending rfl rfl (fun _ hl _ => hl) ?_
      rw [TcpServer.onAccept]
      exact congrArg UserSession.pending (TcpServer.setSession_sessions_of_ne _ _ hv)
  | receive hknown => exact receive_line hknown
  | disconnect =>
    exact .of_pending rfl rfl (fun _ hl _ => hl)
      (TcpServer.setSession_congr (·.pending) (UserSession.close_pending _) v)
  | sweep =>
    refine .of_pending rfl rfl (fun _ hl _ => hl) ?_
    rcases s.srv.removeDisconnected_sessions v with heq | heq <;> rw [heq]
    exact UserSession.close_pending _
  | @rejected env user rest session _ _ hnew _ _ _ _ hpending =>
    by_cases hv : v = user
    · subst hv
      refine .rejected (by simp [hnew]) rfl rfl rfl ?_
      rw [Sys.waiting, Sys.waiting, TcpServer.requeue_sessions_self, hpending, List.map_tail]
    · exact .of_pending rfl rfl (fun _ hl _ => hl)
        (congrArg UserSession.pending (TcpServer.requeue_sessions_of_ne _ _ _ hv))
  | @admitted env user rest session _ _ hnew hlogin _ _ _ hpending =>
    by_cases hv : v = user
    · subst hv
      -- whoever logs in does so with the head of its line
      cases hqueue : (s.srv.sessions v).pending with
      | nil => simp [loginOf, hqueue] at hlogin
      | cons msg queue =>
        simp only [loginOf, hqueue] at hlogin
        refine .admitted (m := msg.withoutSender) (by simp [hnew]) rfl rfl rfl rfl hlogin ?_
        rw [Sys.waiting, Sys.waiting, TcpServer.taken_admitUser_sessions_self rest session
          (h.not_user (u := v) (by simp [hnew])), hpending, hqueue, List.tail_cons, List.map_cons]
    · refine .of_pending rfl rfl (fun l hl hsession => ?_) ?_
      · rcases List.mem_cons.mp hl with rfl | hl
        · exact absurd hsession.symm hv
        · exact hl
      have hsession := s.srv.taken_admitUser_sessions_of_ne rest session hv
      split at hsession
      · exact (congrArg UserSession.pending hsession).trans (UserSession.close_pending _)
      · exact congrArg UserSession.pending hsession
  | visit | finish => exact .of_pending rfl rfl (fun _ hl _ => hl) rfl
  | @dispatch o user msg input output srv hcurrent hpending hmessage =>
    have hframe := (TcpServer.onMessage_frame hmessage).session v
    have hsession : (srv.sessions v).pending = ((s.srv.setSession user
        ((s.srv.sessions user).withQueues input output)).sessions v).pending := by
      rw [hframe]
      rfl
    by_cases hv : v = user
    · subst hv
      rw [TcpServer.setSession_sessions_self, UserSession.withQueues_pending] at hsession
      refine .served (m := msg.withoutSender) hcurrent rfl rfl (ofSession_cons_self v msg _) ?_
      rw [Sys.waiting, Sys.waiting, hpending, hsession, List.map_cons]
    · rw [TcpServer.setSession_sessions_of_ne _ _ hv] at hsession
      refine .kept (fun _ hl _ => hl) rfl (ofSession_cons_of_ne (Ne.symm hv) msg _) ?_
      rw [Sys.waiting, Sys.waiting, hsession]

/-! ## The invariant -/

/-- The attempts end with the message that the session was admitted with. -/
def EndsWithLogin (attempts : List ChatMessage) (l : Login) : Prop :=
  ∃ env earlier login, attempts = earlier ++ [login] ∧
    identify env login.content = some (l.id, l.userEntity)

/-- The messages of a session are its attempts to log in, what has been dispatched for it
and what waits. -/
structure Line (s : Sys) (u : SessionRef) (attempts : List ChatMessage) : Prop where
  order : ofSession u s.received = attempts ++ (ofSession u s.dispatched ++ s.waiting u)
  login : ∀ l ∈ s.admitted, l.session = u → EndsWithLogin attempts l
  stranger : (∀ l ∈ s.admitted, l.session ≠ u) → ofSession u s.dispatched = []

structure Conserved (s : Sys) : Prop where
  line : ∀ u, ∃ attempts, Line s u attempts
  unknown : ∀ u, s.srv.nextSession ≤ u → ofSession u s.received = []

theorem Conserved.start (maxUser : UInt32) : Conserved (Sys.start maxUser) where
  line _ := ⟨[], rfl, fun _ h => absurd h List.not_mem_nil, fun _ => rfl⟩
  unknown _ _ := rfl

/-- Nobody who waits has been admitted, so nothing has been dispatched for them. -/
theorem Line.of_waits {u : SessionRef} {attempts : List ChatMessage} (h : Line s u attempts)
    (hid : Identified s) (hu : u ∈ s.srv.newUsers) :
    (∀ l ∈ s.admitted, l.session ≠ u) ∧ ofSession u s.received = attempts ++ s.waiting u := by
  have hnot : ∀ l ∈ s.admitted, l.session ≠ u := by
    rintro l hl rfl
    exact (hid.known l hl).2 hu
  refine ⟨hnot, ?_⟩
  rw [h.order, h.stranger hnot, List.nil_append]

/-- **Step lemma.** -/
theorem conserved_step (hadm : Admission s) (hid : Identified s) (h : Conserved s)
    (heffect : Effect parse s a t) : Conserved t := by
  have hless : ∀ {u}, (∀ l ∈ t.admitted, l.session ≠ u) → ∀ l ∈ s.admitted, l.session ≠ u :=
    fun hnot l hl => hnot l (step_admitted_subset hadm heffect hl)
  refine ⟨fun u => ?_, fun u hu => ?_⟩
  · obtain ⟨attempts, hline⟩ := h.line u
    cases step_line hadm heffect u with
    | kept hadmitted hreceived hdispatched hwaiting =>
      refine ⟨attempts, ?_, fun l hl hu => hline.login l (hadmitted l hl hu) hu, fun hnot => ?_⟩
      · rw [hreceived, hdispatched, hwaiting, hline.order]
      · rw [hdispatched, hline.stranger (hless hnot)]
    | fresh hv hadmitted hreceived hdispatched hwaiting =>
      -- a session that was not known has sent nothing, and is not admitted
      have hnone := h.unknown u (Nat.le_of_eq hv.symm)
      rw [hline.order, List.append_eq_nil_iff, List.append_eq_nil_iff] at hnone
      obtain ⟨hattempts, hserved, -⟩ := hnone
      refine ⟨attempts, ?_, fun l hl => hline.login l (hadmitted ▸ hl), fun _ => ?_⟩
      · rw [hreceived, hdispatched, hwaiting, hserved, hattempts,
          h.unknown u (Nat.le_of_eq hv.symm)]
        rfl
      · rw [hdispatched, hserved]
    | arrived hv hadmitted hreceived hdispatched hwaiting =>
      refine ⟨attempts, ?_, fun l hl => hline.login l (hadmitted ▸ hl), fun hnot => ?_⟩
      · rw [hreceived, hdispatched, hwaiting, hline.order]
        simp only [List.append_assoc]
      · rw [hdispatched, hline.stranger (hless hnot)]
    | rejected hv hreceived hdispatched hadmitted hwaiting =>
      obtain ⟨hnot, horder⟩ := hline.of_waits hid hv
      refine ⟨attempts ++ (s.waiting u).head?.toList, ?_, fun l hl hu => ?_, fun _ => ?_⟩
      · rw [hreceived, hdispatched, hwaiting, hline.stranger hnot, horder, List.nil_append,
          List.append_assoc]
        cases s.waiting u <;> rfl
      · exact absurd hu (hnot l (hadmitted ▸ hl))
      · rw [hdispatched, hline.stranger hnot]
    | @admitted env l msg hv hreceived hdispatched hadmitted hl hidentify hwaiting =>
      obtain ⟨hnot, horder⟩ := hline.of_waits hid hv
      refine ⟨attempts ++ [msg], ?_, fun l' hl' hu => ?_, fun _ => ?_⟩
      · rw [hreceived, hdispatched, hline.stranger hnot, horder, hwaiting]
        exact List.append_cons ..
      · rw [hadmitted, List.mem_cons] at hl'
        rcases hl' with rfl | hl'
        · exact ⟨env, attempts, msg, rfl, hidentify⟩
        · exact absurd hu (hnot l' hl')
      · rw [hdispatched, hline.stranger hnot]
    | served hv hadmitted hreceived hdispatched hwaiting =>
      refine ⟨attempts, ?_, fun l hl => hline.login l (hadmitted ▸ hl), fun hnot => ?_⟩
      · rw [hreceived, hdispatched, hline.order, hwaiting]
        simp only [List.append_assoc, List.singleton_append]
      · -- whoever is served was admitted
        obtain ⟨l, hl, hsession⟩ := hid.serving u hv
        exact absurd hsession (hless hnot l hl)
  · have hknown : s.srv.nextSession ≤ t.srv.nextSession := by
      rcases step_containers hadm heffect with ⟨-, -, hle, -⟩ | ⟨-, -, -, -, -, -, heq, -⟩
      · exact hle
      · exact Nat.le_of_eq heq.symm
    have hold := h.unknown u (Nat.le_trans hknown hu)
    cases step_line hadm heffect u with
    | kept _ hreceived => rw [hreceived, hold]
    | arrived hv => exact absurd (Nat.le_trans hknown hu) (Nat.not_le.mpr hv)
    | fresh _ _ hreceived | rejected _ hreceived | admitted _ hreceived
    | served _ _ hreceived => rw [hreceived, hold]

/-- What has been dispatched for a session was sent by it, but for the sender. -/
theorem Conserved.sent (h : Conserved s) {d : SessionRef × ChatMessage} (hd : d ∈ s.dispatched) :
    ∃ sent, (d.1, sent) ∈ s.received ∧ d.2 = { sent with sender := d.2.sender } := by
  obtain ⟨attempts, hline⟩ := h.line d.1
  have hmem : d.2.withoutSender ∈ ofSession d.1 s.received := by
    rw [hline.order]
    exact List.mem_append_right _ (List.mem_append_left _ (mem_ofSession hd))
  obtain ⟨sent, hsent, heq⟩ := exists_of_mem_ofSession hmem
  refine ⟨sent, hsent, ?_⟩
  have hrestored := congrArg (fun m : ChatMessage => { m with sender := d.2.sender }) heq
  exact hrestored.symm

/-- **Run lemma.** -/
theorem conserved_of_run {maxUser : UInt32} {as : List Action}
    (hrun : Run (step parse) anyStep (Sys.start maxUser) as s) : Conserved s :=
  (invariant_of_run (P := Conserved) (.start maxUser)
    (fun _ _ _ hadm hid h _ heffect => conserved_step hadm hid h heffect) hrun).2.2

/-- **Conservation.** After any run, the messages that a session has sent are, in their
order, those that its attempts to log in have used up, those that `OnMessage` was called
with, and those that wait in its queues. An admitted session was admitted with the last
of its attempts, and `OnMessage` is called for nobody else. -/
theorem dispatch_conservation {maxUser : UInt32} {as : List Action}
    (hrun : Run (step parse) anyStep (Sys.start maxUser) as s) (u : SessionRef) :
    ∃ attempts, ofSession u s.received =
        attempts ++ (ofSession u s.dispatched ++ (s.srv.sessions u).pending.map (·.withoutSender)) ∧
      (∀ l ∈ s.admitted, l.session = u → ∃ env earlier login, attempts = earlier ++ [login] ∧
        identify env login.content = some (l.id, l.userEntity)) ∧
      ((∀ l ∈ s.admitted, l.session ≠ u) → ofSession u s.dispatched = []) := by
  obtain ⟨attempts, hline⟩ := (conserved_of_run hrun).line u
  exact ⟨attempts, hline.order, hline.login, hline.stranger⟩

/-- The first session id is wrong; what waits behind the second is dispatched. -/
def annRetries : List Action :=
  [.accept, .receive 0 (login "z").serialize, .receive 0 (login "a").serialize,
    .receive 0 hi.serialize, .receive 0 hi.serialize, .sweep, .examine annAndBob,
    .examine annAndBob, .visit 0, .dispatch {}]

theorem dispatch_conservation_annRetries :
    ∃ (s : Sys) (attempts : List ChatMessage), ofSession 0 s.dispatched = [hi] ∧
      (s.srv.sessions 0).pending = [hi] ∧
      ofSession 0 s.received = attempts ++ ([hi] ++ [hi]) ∧
      ∃ env earlier login, attempts = earlier ++ [login] ∧
        identify env login.content = some (1, MySQLManager.entityOfRow ann) := by
  obtain ⟨s, hrun, hs⟩ := exists_run_of_exec (step (parseSerialized [login "z", login "a", hi]))
    anyStep (Sys.start 5) annRetries
    (fun s => decide (ofSession 0 s.dispatched = [hi] ∧ (s.srv.sessions 0).pending = [hi] ∧
      s.admitted = [⟨0, 1, MySQLManager.entityOfRow ann⟩])) (by decide)
  obtain ⟨hdispatched, hpending, hadmitted⟩ := of_decide_eq_true hs
  obtain ⟨attempts, horder, hlogin, -⟩ := dispatch_conservation hrun 0
  rw [hdispatched, hpending] at horder
  exact ⟨s, attempts, hdispatched, hpending, horder,
    hlogin ⟨0, 1, MySQLManager.entityOfRow ann⟩ (by simp [hadmitted]) rfl⟩

end BoostChat.Server
