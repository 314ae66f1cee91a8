import BoostChat.Server.Relay

/-!
# Whispers

* `whispers_private` — a whisper reaches only a session of the user that it names, who is
  not the sender;
* `whisper_delivery` — as long as a session is the connected user of a name, it gets every
  whisper that another one sends to this name, once and in order, and no other whisper.
-/

namespace BoostChat.Server

open Lib

theorem IsComposed.not_whisper {msg : ChatMessage} (h : IsComposed msg) :
    msg.messageType ≠ .whisperMessage := fun htype =>
  h.not_relayed (Or.inr (Or.inr htype))

namespace TcpServer

variable {o : Oracle} {s s' : TcpServer} {user : SessionRef} {msg : ChatMessage}

/-- The session that a whisper to this name goes to. -/
def receiverOf (s : TcpServer) (receiver : Bytes) : Option SessionRef :=
  s.users.find? fun user => (s.sessions user).userEntity.userId == receiver && s.isConnected user

/-- A whisper with a content, to somebody else. -/
def Whispers (s : TcpServer) (user : SessionRef) (msg : ChatMessage) : Prop :=
  msg.messageType = .whisperMessage ∧ msg.receiver ≠ [] ∧ msg.content ≠ [] ∧
    (s.sessions user).userEntity.userId ≠ msg.receiver

instance (s : TcpServer) (user : SessionRef) (msg : ChatMessage) :
    Decidable (s.Whispers user msg) := inferInstanceAs (Decidable (_ ∧ _))

theorem receiverOf_congr (husers : s'.users = s.users)
    (hentity : ∀ v, (s'.sessions v).userEntity = (s.sessions v).userEntity)
    (hactive : ∀ v, (s'.sessions v).isActive = (s.sessions v).isActive) :
    s'.receiverOf = s.receiverOf := by
  funext receiver
  rw [receiverOf, receiverOf, husers]
  simp only [hentity, isConnected, UserSession.isConnected, hactive]

theorem whispers_congr (hentity : ∀ v, (s'.sessions v).userEntity = (s.sessions v).userEntity) :
    s'.Whispers = s.Whispers := by
  funext user msg
  rw [Whispers, Whispers, hentity]

/-- The whispers among what was sent. -/
def whispersOf (posted : List (SessionRef × ChatMessage)) : List (SessionRef × ChatMessage) :=
  posted.filter fun p => decide (p.2.messageType = .whisperMessage)

theorem whispersOf_eq_nil {new : List (SessionRef × ChatMessage)}
    (h : ∀ p ∈ new, p.2.messageType ≠ .whisperMessage) : whispersOf new = [] := by
  rw [whispersOf, List.filter_eq_nil_iff]
  exact fun p hp => (Bool.not_eq_true _).mpr (decide_eq_false (h p hp))

/-- What `HandleWhisperMessage` sends: an error to the sender, or the whisper to its receiver. -/
theorem handleWhisperMessage_whispers (htype : msg.messageType = .whisperMessage) :
    ∃ new, (s.handleWhisperMessage user msg).posted = s.posted ++ new ∧
      whispersOf new = if s.Whispers user msg then
        (s.receiverOf msg.receiver).toList.map fun v => (v, msg) else [] := by
  have herror (text : Bytes) :
      whispersOf [(user, { messageType := .errorMessage, content := text })] = [] := rfl
  unfold handleWhisperMessage
  by_cases hempty : msg.receiver = [] ∨ msg.content = []
  · rw [if_pos hempty, if_neg fun h => hempty.elim h.2.1 h.2.2.1]
    exact ⟨_, rfl, herror _⟩
  rw [not_or] at hempty
  rw [if_neg (not_or.mpr hempty), sendWhisperMessage]
  by_cases hself : (s.sessions user).userEntity.userId = msg.receiver
  · rw [if_pos hself, if_neg fun h => h.2.2.2 hself]
    exact ⟨_, rfl, herror _⟩
  rw [if_neg hself, if_pos ⟨htype, hempty.1, hempty.2, hself⟩, receiverOf]
  split
  · rename_i v hfound
    rw [hfound]
    exact ⟨[(v, msg)], rfl, List.filter_cons_of_pos (decide_eq_true htype)⟩
  · rename_i hnobody
    rw [hnobody]
    exact ⟨_, rfl, herror _⟩

/-- **Whispers.** `OnMessage` sends a whisper when it is called with one, and no other. -/
theorem onMessage_whispers (h : s.onMessage o user msg = .ok s') :
    ∃ new, s'.posted = s.posted ++ new ∧
      whispersOf new = if s.Whispers user msg then
        (s.receiverOf msg.receiver).toList.map fun v => (v, msg) else [] := by
  by_cases htype : msg.messageType = .whisperMessage
  · simp only [onMessage, htype] at h
    exact Except.ok.inj h ▸ handleWhisperMessage_whispers htype
  · obtain ⟨new, hposted, hreplies⟩ := onMessage_sends h
    refine ⟨new, hposted, ?_⟩
    rw [if_neg fun hwhispers => htype hwhispers.1]
    refine whispersOf_eq_nil fun p hp => ?_
    rcases hreplies.content p hp with hcomposed | ⟨-, heq⟩
    · exact hcomposed.not_whisper
    · rwa [heq]

end TcpServer

/-! ## Whispers of a run -/

open TcpServer

variable {parse : Bytes → Option ChatMessage} {s t : Sys} {a : Action}

/-- The session was admitted with this user id. -/
def LoggedInAs (s : Sys) (user : SessionRef) (userId : Bytes) : Prop :=
  ∃ l ∈ s.admitted, l.session = user ∧ l.userEntity.userId = userId

instance (s : Sys) (user : SessionRef) (userId : Bytes) : Decidable (LoggedInAs s user userId) :=
  inferInstanceAs (Decidable (∃ l ∈ s.admitted, _))

/-- A session that was admitted has the user id that it was admitted with. -/
theorem Identified.loggedInAs_iff (hid : Identified s) {user : SessionRef}
    (hadmitted : ∃ l ∈ s.admitted, l.session = user) {userId : Bytes} :
    LoggedInAs s user userId ↔ (s.srv.sessions user).userEntity.userId = userId := by
  constructor
  · rintro ⟨l, hl, rfl, rfl⟩
    rw [(hid.identity l hl).2.1]
  · rintro rfl
    obtain ⟨l, hl, rfl⟩ := hadmitted
    exact ⟨l, hl, rfl, by rw [(hid.identity l hl).2.1]⟩

/-- Nobody who was admitted gets another user id. -/
theorem loggedInAs_step (hadm : Admission s) (hid : Identified s) (heffect : Effect parse s a t)
    {user : SessionRef} (hadmitted : ∃ l ∈ s.admitted, l.session = user) (userId : Bytes) :
    LoggedInAs t user userId ↔ LoggedInAs s user userId := by
  have hlater : ∃ l ∈ t.admitted, l.session = user := by
    obtain ⟨l, hl, hsession⟩ := hadmitted
    exact ⟨l, step_admitted_subset hadm heffect hl, hsession⟩
  rw [hid.loggedInAs_iff hadmitted, (identified_step hadm hid heffect).loggedInAs_iff hlater]
  obtain ⟨l, hl, rfl⟩ := hadmitted
  rw [(hid.identity l hl).2.1, (hid.kept hadm heffect hl).2.1]

/-- The whispers that a step sends: one for a whisper that was dispatched and that finds its
receiver. -/
inductive Whispering (s t : Sys) : List (SessionRef × ChatMessage) → Prop
  | quiet (hdispatched : t.dispatched = s.dispatched) : Whispering s t []
  | serving {user : SessionRef} {msg : ChatMessage} (hcurrent : s.current = some user)
      (hdispatched : t.dispatched = (user, msg) :: s.dispatched) :
      Whispering s t (if s.srv.Whispers user msg then
        (s.srv.receiverOf msg.receiver).toList.map fun v => (v, msg) else [])

theorem step_whispers (heffect : Effect parse s a t) :
    ∃ new whispers, t.srv.posted = s.srv.posted ++ new ∧ whispersOf new = whispers ∧
      Whispering s t whispers := by
  cases heffect with
  | @admitted env user rest session =>
    obtain ⟨new, hposted, hnew⟩ := (s.srv.taken user rest session).admitUser_sends user
    exact ⟨new, [], hposted, whispersOf_eq_nil fun p hp => (hnew p hp).2.not_whisper, .quiet rfl⟩
  | @dispatch o user msg input output srv hcurrent hpending hmessage =>
    obtain ⟨new, hposted, hwhispers⟩ := onMessage_whispers hmessage
    -- taking a message from a queue renames and closes nothing
    let taken := s.srv.setSession user ((s.srv.sessions user).withQueues input output)
    have hentity (v : SessionRef) : (taken.sessions v).userEntity = (s.srv.sessions v).userEntity :=
      TcpServer.setSession_congr (·.userEntity) (UserSession.withQueues_userEntity _ input output) v
    have hactive (v : SessionRef) : (taken.sessions v).isActive = (s.srv.sessions v).isActive :=
      TcpServer.setSession_congr (·.isActive) (UserSession.withQueues_isActive _ input output) v
    have hreceiver : taken.receiverOf = s.srv.receiverOf := receiverOf_congr rfl hentity hactive
    have hsame : taken.Whispers = s.srv.Whispers := whispers_congr hentity
    simp only [taken] at hreceiver hsame
    simp only [hreceiver, hsame] at hwhispers
    exact ⟨new, _, hposted, hwhispers, .serving hcurrent rfl⟩
  | _ => exact ⟨[], [], (List.append_nil _).symm, rfl, .quiet rfl⟩

/-! ## Who gets them -/

/-- Every whisper that was sent went to the user that it names, from another session. -/
def WhispersPrivate (s : Sys) : Prop :=
  ∀ p ∈ s.srv.posted, p.2.messageType = .whisperMessage →
    LoggedInAs s p.1 p.2.receiver ∧ p.2.receiver ≠ [] ∧ p.2.content ≠ [] ∧
    ∃ d ∈ s.dispatched, d.2 = p.2 ∧ (∃ l ∈ s.admitted, l.session = d.1) ∧
      ¬ LoggedInAs s d.1 p.2.receiver

/-- A whisper that is sent finds a user of that name. -/
theorem TcpServer.mem_of_receiverOf {srv : TcpServer} {receiver : Bytes} {v : SessionRef}
    (h : srv.receiverOf receiver = some v) :
    v ∈ srv.users ∧ (srv.sessions v).userEntity.userId = receiver ∧ srv.isConnected v = true := by
  have hfound := List.find?_some h
  rw [Bool.and_eq_true, beq_iff_eq] at hfound
  exact ⟨List.mem_of_find?_eq_some h, hfound⟩

/-- **Step lemma.** -/
theorem whispersPrivate_step (hadm : Admission s) (hid : Identified s) (h : WhispersPrivate s)
    (heffect : Effect parse s a t) : WhispersPrivate t := by
  obtain ⟨new, whispers, hposted, hwhispers, hwhispering⟩ := step_whispers heffect
  have hmore {v : SessionRef} (hv : ∃ l ∈ s.admitted, l.session = v) :
      ∃ l ∈ t.admitted, l.session = v := by
    obtain ⟨l, hl, hsession⟩ := hv
    exact ⟨l, step_admitted_subset hadm heffect hl, hsession⟩
  have hsame {v : SessionRef} (hv : ∃ l ∈ s.admitted, l.session = v) (userId : Bytes) :
      LoggedInAs t v userId ↔ LoggedInAs s v userId := loggedInAs_step hadm hid heffect hv userId
  intro p hp htype
  rw [hposted, List.mem_append] at hp
  rcases hp with hp | hp
  · obtain ⟨⟨l, hl, hreceiver⟩, hnamed, hcontent, d, hd, heq, hadmitted, hother⟩ := h p hp htype
    refine ⟨(hsame ⟨l, hl, hreceiver.1⟩ _).mpr ⟨l, hl, hreceiver⟩, hnamed, hcontent, d, ?_, heq,
      hmore hadmitted, fun hlogged => hother ((hsame hadmitted _).mp hlogged)⟩
    cases hwhispering with
    | quiet hdispatched => rwa [hdispatched]
    | serving _ hdispatched =>
      rw [hdispatched]
      exact List.mem_cons_of_mem _ hd
  · have hnew : p ∈ whispers := by
      rw [← hwhispers]
      exact List.mem_filter.mpr ⟨hp, decide_eq_true htype⟩
    cases hwhispering with
    | quiet => exact absurd hnew List.not_mem_nil
    | @serving user msg hcurrent hdispatched =>
      split at hnew
      · rename_i hwhispers
        obtain ⟨v, hv, rfl⟩ := List.mem_map.mp hnew
        obtain ⟨hmem, hname, -⟩ := TcpServer.mem_of_receiverOf (Option.mem_toList.mp hv)
        have hsender := hid.serving user hcurrent
        obtain ⟨-, hnamed, hcontent, hother⟩ := hwhispers
        have hlogged := (hid.loggedInAs_iff (hid.users v hmem)).mpr hname
        refine ⟨(hsame (hid.users v hmem) _).mpr hlogged, hnamed, hcontent, (user, msg), ?_, rfl,
          hmore hsender, fun hself => hother ?_⟩
        · rw [hdispatched]
          exact List.mem_cons_self
        · exact (hid.loggedInAs_iff hsender).mp ((hsame hsender _).mp hself)
      · exact absurd hnew List.not_mem_nil

/-- **Privacy.** Whatever whisper is sent goes to a session that was admitted as the user that
the whisper names. It has a content, and it was sent by a session that was admitted as
somebody else. -/
theorem whispers_private {maxUser : UInt32} {as : List Action}
    (hrun : Run (step parse) anyStep (Sys.start maxUser) as s) :
    ∀ p ∈ s.srv.posted, p.2.messageType = .whisperMessage →
      LoggedInAs s p.1 p.2.receiver ∧ p.2.receiver ≠ [] ∧ p.2.content ≠ [] ∧
      ∃ d ∈ s.dispatched, d.2 = p.2 ∧ (∃ l ∈ s.admitted, l.session = d.1) ∧
        ¬ LoggedInAs s d.1 p.2.receiver :=
  (invariant_of_run (P := WhispersPrivate) (fun _ h => absurd h List.not_mem_nil)
    (fun _ _ _ hadm hid h _ heffect => whispersPrivate_step hadm hid h heffect) hrun).2.2

/-! ## Who gets all of them -/

/-- The session is the connected user of this name, and the only one. -/
def Owns (user : SessionRef) (userId : Bytes) (s : Sys) : Prop :=
  Listens user s ∧ LoggedInAs s user userId ∧ ∀ v ∈ s.srv.users, LoggedInAs s v userId → v = user

instance (user : SessionRef) (userId : Bytes) (s : Sys) : Decidable (Owns user userId s) :=
  inferInstanceAs (Decidable (_ ∧ _))

/-- A whisper with a content to this name, from a session that was admitted as somebody else. -/
def IsFor (s : Sys) (userId : Bytes) (d : SessionRef × ChatMessage) : Prop :=
  d.2.messageType = .whisperMessage ∧ d.2.receiver = userId ∧ userId ≠ [] ∧ d.2.content ≠ [] ∧
    ¬ LoggedInAs s d.1 userId

instance (s : Sys) (userId : Bytes) (d : SessionRef × ChatMessage) : Decidable (IsFor s userId d) :=
  inferInstanceAs (Decidable (_ ∧ _))

/-- The whispers for a name among some dispatches, oldest first. -/
def whispersFor (s : Sys) (userId : Bytes) (dispatched : List (SessionRef × ChatMessage)) :
    List ChatMessage :=
  (dispatched.reverse.filter fun d => decide (IsFor s userId d)).map (·.2)

theorem whispersFor_append (s : Sys) (userId : Bytes)
    (newer older : List (SessionRef × ChatMessage)) :
    whispersFor s userId (newer ++ older) =
      whispersFor s userId older ++ whispersFor s userId newer := by
  simp only [whispersFor, List.reverse_append, List.filter_append, List.map_append]

/-- The whispers that were sent to a session. -/
def whispersTo (u : SessionRef) (s : Sys) : List ChatMessage :=
  sentOf (fun m => decide (m.messageType = .whisperMessage)) u s.srv.posted

theorem sentOf_whispers (u : SessionRef) (posted : List (SessionRef × ChatMessage)) :
    sentOf (fun m => decide (m.messageType = .whisperMessage)) u posted =
      sentTo u (whispersOf posted) := by
  rw [sentOf, sentTo, sentTo, whispersOf, List.filter_map, List.filter_filter, List.filter_filter]
  simp only [Function.comp_def, Bool.and_comm]

/-- The owner of a name is whom a whisper finds. -/
theorem Owns.receiverOf_eq_some_iff (hid : Identified s) {u : SessionRef} {userId : Bytes}
    (h : Owns u userId s) {receiver : Bytes} :
    s.srv.receiverOf receiver = some u ↔ receiver = userId := by
  obtain ⟨⟨hu, hconnected⟩, hlogged, honly⟩ := h
  have hname := (hid.loggedInAs_iff (hid.users u hu)).mp hlogged
  constructor
  · intro hfound
    rw [← hname, (TcpServer.mem_of_receiverOf hfound).2.1]
  · rintro rfl
    cases hfound : s.srv.receiverOf receiver with
    | none =>
      have hnot := List.find?_eq_none.mp hfound u hu
      rw [hname, beq_self_eq_true, hconnected] at hnot
      exact absurd rfl hnot
    | some v =>
      obtain ⟨hv, hvname, -⟩ := TcpServer.mem_of_receiverOf hfound
      rw [honly v hv ((hid.loggedInAs_iff (hid.users v hv)).mpr hvname)]

/-- What a step adds to the whispers of the owner of a name. -/
theorem step_owned (hid : Identified s) (heffect : Effect parse s a t) {u : SessionRef}
    {userId : Bytes} (howns : Owns u userId s) :
    ∃ more, t.dispatched = more ++ s.dispatched ∧
      (∀ d ∈ more, ∃ l ∈ s.admitted, l.session = d.1) ∧
      whispersTo u t = whispersTo u s ++ whispersFor s userId more := by
  obtain ⟨new, whispers, hposted, hwhispers, hwhispering⟩ := step_whispers heffect
  rw [whispersTo, hposted, sentOf_append, sentOf_whispers u new, hwhispers]
  cases hwhispering with
  | quiet hdispatched => exact ⟨[], hdispatched, fun _ h => absurd h List.not_mem_nil, rfl⟩
  | @serving user msg hcurrent hdispatched =>
    have hsender := hid.serving user hcurrent
    refine ⟨[(user, msg)], hdispatched, List.forall_mem_singleton.mpr hsender, congrArg _ ?_⟩
    have hfor : IsFor s userId (user, msg) ↔
        s.srv.Whispers user msg ∧ s.srv.receiverOf msg.receiver = some u := by
      rw [howns.receiverOf_eq_some_iff hid, IsFor, TcpServer.Whispers, hid.loggedInAs_iff hsender]
      constructor
      · rintro ⟨htype, rfl, hnamed, hcontent, hother⟩
        exact ⟨⟨htype, hnamed, hcontent, hother⟩, rfl⟩
      · rintro ⟨⟨htype, hnamed, hcontent, hother⟩, rfl⟩
        exact ⟨htype, rfl, hnamed, hcontent, hother⟩
    rw [whispersFor, List.reverse_singleton]
    by_cases hcase : IsFor s userId (user, msg)
    · obtain ⟨hsends, hfound⟩ := hfor.mp hcase
      have hkept : [(user, msg)].filter (fun d => decide (IsFor s userId d)) = [(user, msg)] :=
        List.filter_eq_self.mpr (List.forall_mem_singleton.mpr (decide_eq_true hcase))
      rw [if_pos hsends, hfound, hkept]
      show sentTo u ([u].map fun v => (v, msg)) = [msg]
      rw [sentTo_copies, List.count_singleton_self]
      rfl
    · have hdropped : [(user, msg)].filter (fun d => decide (IsFor s userId d)) = [] :=
        List.filter_eq_nil_iff.mpr (List.forall_mem_singleton.mpr fun h =>
          hcase (of_decide_eq_true h))
      rw [hdropped]
      refine sentTo_eq_nil fun p hp heq => hcase (hfor.mpr ?_)
      split at hp
      · rename_i hsends
        obtain ⟨v, hv, rfl⟩ := List.mem_map.mp hp
        exact ⟨hsends, (Option.mem_toList.mp hv).trans (congrArg some heq)⟩
      · exact absurd hp List.not_mem_nil

/-- **Delivery.** As long as a session is the connected user of a name, and the only one, it
gets every whisper that `OnMessage` is called with for this name, unless it has no content or
comes from a session of the same name: each once, in the order of the calls, and no other. -/
theorem whisper_delivery {maxUser : UInt32} {as bs : List Action} {u : SessionRef}
    {userId : Bytes} (hstart : Run (step parse) anyStep (Sys.start maxUser) as s)
    (hrun : Run (step parse) (fun x _ => Owns u userId x) s bs t) :
    ∃ more, t.dispatched = more ++ s.dispatched ∧
      (sentTo u t.srv.posted).filter (fun m => decide (m.messageType = .whisperMessage)) =
        (sentTo u s.srv.posted).filter (fun m => decide (m.messageType = .whisperMessage)) ++
          (more.reverse.filter fun d => decide (IsFor t userId d)).map (·.2) := by
  obtain ⟨hadm, hid⟩ := identified_of_run hstart
  have hend : Admission t ∧ Identified t ∧ ∃ more, t.dispatched = more ++ s.dispatched ∧
      (∀ d ∈ more, ∃ l ∈ t.admitted, l.session = d.1) ∧
      whispersTo u t = whispersTo u s ++ whispersFor t userId more := by
    refine hrun.invariant (I := fun t => Admission t ∧ Identified t ∧
      ∃ more, t.dispatched = more ++ s.dispatched ∧
        (∀ d ∈ more, ∃ l ∈ t.admitted, l.session = d.1) ∧
        whispersTo u t = whispersTo u s ++ whispersFor t userId more) ?_
      ⟨hadm, hid, [], rfl, fun _ h => absurd h List.not_mem_nil, (List.append_nil _).symm⟩
    rintro x a y ⟨hadm, hid, more, hdispatched, hsenders, hsent⟩ howns hstep
    have heffect := step_effect hstep
    obtain ⟨last, hlast, hlastSenders, hsent'⟩ := step_owned hid heffect howns
    -- who has been admitted keeps the name, so that the same dispatches count
    have hsame {ds : List (SessionRef × ChatMessage)}
        (hds : ∀ d ∈ ds, ∃ l ∈ x.admitted, l.session = d.1) :
        whispersFor y userId ds = whispersFor x userId ds := by
      rw [whispersFor, whispersFor]
      refine congrArg _ (List.filter_congr fun d hd => decide_eq_decide.mpr ?_)
      unfold IsFor
      rw [loggedInAs_step hadm hid heffect (hds d (List.mem_reverse.mp hd))]
    refine ⟨admission_step hadm heffect, identified_step hadm hid heffect, last ++ more, ?_,
      fun d hd => ?_, ?_⟩
    · rw [hlast, hdispatched, List.append_assoc]
    · obtain ⟨l, hl, hsession⟩ := (List.mem_append.mp hd).elim (hlastSenders d) (hsenders d)
      exact ⟨l, step_admitted_subset hadm heffect hl, hsession⟩
    · rw [whispersFor_append, hsame hsenders, hsame hlastSenders, hsent', hsent, List.append_assoc]
  obtain ⟨-, -, more, hdispatched, -, hsent⟩ := hend
  exact ⟨more, hdispatched, hsent⟩

/-- What `ann` whispers to `bob`. -/
def psst : ChatMessage :=
  { messageType := .whisperMessage, receiver := ascii "bob", content := ascii "psst" }

/-- The same under her name. -/
def heard : ChatMessage := { psst with sender := ascii "ann" }

/-- Both log in. -/
def bothLoggedIn : List Action :=
  [.accept, .accept, .receive 0 (login "a").serialize, .receive 1 (login "b").serialize, .sweep,
    .examine annAndBob, .examine annAndBob]

/-- Then `ann` whispers. -/
def annWhispers : List Action := [.receive 0 psst.serialize, .visit 0, .dispatch {}]

theorem whispers_private_annWhispers : ∃ s : Sys,
    (1, heard) ∈ s.srv.posted ∧
      LoggedInAs s 1 (ascii "bob") ∧ ∃ d ∈ s.dispatched, ¬ LoggedInAs s d.1 (ascii "bob") := by
  obtain ⟨s, hrun, hs⟩ := exists_run_of_exec
    (step (parseSerialized [login "a", login "b", psst])) anyStep (Sys.start 5)
    (bothLoggedIn ++ annWhispers)
    (fun s => decide ((1, heard) ∈ s.srv.posted)) (by decide)
  have hposted := of_decide_eq_true hs
  obtain ⟨hreceiver, -, -, d, hd, -, -, hother⟩ := whispers_private hrun _ hposted rfl
  exact ⟨s, hposted, hreceiver, d, hd, hother⟩

/-- `bob` gets it, and nothing else was whispered to him. -/
theorem whisper_delivery_annWhispers : ∃ t : Sys,
    (sentTo 1 t.srv.posted).filter (fun m => decide (m.messageType = .whisperMessage)) =
      [heard] := by
  let parse := parseSerialized [login "a", login "b", psst]
  obtain ⟨s, hstart, hs⟩ := exists_run_of_exec (step parse) anyStep (Sys.start 5) bothLoggedIn
    (fun s => decide (s.dispatched = [] ∧
      (sentTo 1 s.srv.posted).filter (fun m => decide (m.messageType = .whisperMessage)) = [] ∧
      ((exec (step parse) (fun x _ => Owns 1 (ascii "bob") x) s annWhispers).map fun t =>
        decide (t.dispatched = [(0, heard)] ∧
          ¬ LoggedInAs t 0 (ascii "bob"))) = some true)) (by decide)
  obtain ⟨hdispatched, hsent, hgoes⟩ := of_decide_eq_true hs
  obtain ⟨t, hrun, ht⟩ := exists_run_of_exec (step parse) (fun x _ => Owns 1 (ascii "bob") x) s
    annWhispers _ hgoes
  obtain ⟨hone, hother⟩ := of_decide_eq_true ht
  obtain ⟨more, hmore, hwhispers⟩ := whisper_delivery hstart hrun
  rw [hdispatched, List.append_nil] at hmore
  have hfor : IsFor t (ascii "bob") (0, heard) :=
    ⟨rfl, rfl, by decide, by decide, hother⟩
  refine ⟨t, ?_⟩
  have hkept : [(0, heard)].filter (fun d => decide (IsFor t (ascii "bob") d)) = [(0, heard)] :=
    List.filter_eq_self.mpr (List.forall_mem_singleton.mpr (decide_eq_true hfor))
  rw [hwhispers, hsent, ← hmore, hone, List.reverse_singleton, hkept]
  rfl

end BoostChat.Server
