import BoostChat.Server.Conservation
import BoostChat.Server.DispatchPass

/-!
# What the server sends, and to whom

Every `Send` of a run, by the call that makes it.

* `Replies` — what a handler sends: messages that the server composes, to users and to the
  session that is served, or copies of the message, to users only;
* `posted_source` — whatever the server sends goes to a session that was admitted, and is
  composed by the server or was sent by an admitted session as it is, but for the sender;
* `departed_silence` — a session that has left the users gets nothing more;
* `relayed_in_order` — the messages that are relayed to a session come in the order in
  which `OnMessage` was called, whisper and public messages at most once;
* `public_delivery` — as long as a session is a connected user, it gets every public message.
-/

namespace BoostChat.Server

open Lib

/-- A message that the server composes. -/
def IsComposed (msg : ChatMessage) : Prop :=
  (msg.messageType = .errorMessage ∨ msg.messageType = .serverMessage ∨
    msg.messageType = .loginMessage) ∧
    msg.sender = [] ∧ msg.receiver = [] ∧ msg.unknownFields = []

theorem IsComposed.not_relayed {msg : ChatMessage} (h : IsComposed msg) : ¬ IsRelayed msg := by
  rcases h.1 with h | h | h <;> simp [IsRelayed, h]

instance (msg : ChatMessage) : Decidable (IsRelayed msg) := inferInstanceAs (Decidable (_ ∨ _))

namespace TcpServer

variable {o : Oracle} {s s' : TcpServer} {user : SessionRef} {msg : ChatMessage}

/-! ## What a handler sends -/

/-- What is sent while `msg` is handled for the session `user`. -/
inductive Replies (s : TcpServer) (user : SessionRef) (msg : ChatMessage) :
    List (SessionRef × ChatMessage) → Prop
  | composed {new : List (SessionRef × ChatMessage)} (hquiet : ¬ msg.IsPublic)
      (hnew : ∀ p ∈ new, (p.1 = user ∨ p.1 ∈ s.users) ∧ IsComposed p.2) : Replies s user msg new
  | toAll (hpublic : msg.IsPublic) :
      Replies s user msg ((s.users.filter s.isConnected).map fun v => (v, msg))
  | toOne {v : SessionRef} (htype : msg.messageType = .whisperMessage) (hv : v ∈ s.users) :
      Replies s user msg [(v, msg)]
  | toParty {targets : List SessionRef} (htype : msg.messageType = .partyMessage)
      (htargets : ∀ v ∈ targets, v ∈ s.users) :
      Replies s user msg (targets.map fun v => (v, msg))

/-- The server has sent this much more, and it is a reply. -/
def Sends (s : TcpServer) (user : SessionRef) (msg : ChatMessage) (s' : TcpServer) : Prop :=
  ∃ new, s'.posted = s.posted ++ new ∧ s.Replies user msg new

theorem Sends.nothing (hquiet : ¬ msg.IsPublic) (h : s'.posted = s.posted) :
    s.Sends user msg s' := by
  refine ⟨[], by rw [h, List.append_nil], .composed hquiet fun p hp => ?_⟩
  exact absurd hp List.not_mem_nil

/-- An error or a server message to the session that is served. -/
theorem Sends.answer (hquiet : ¬ msg.IsPublic) {messageType : ChatMessageType}
    (htype : messageType = .errorMessage ∨ messageType = .serverMessage) (text : Bytes)
    (h : s'.posted = s.posted ++ [(user, { messageType, content := text })]) :
    s.Sends user msg s' := by
  refine ⟨_, h, .composed hquiet fun p hp => ?_⟩
  rw [List.mem_singleton] at hp
  subst hp
  exact ⟨Or.inl rfl, htype.imp_right Or.inl, rfl, rfl, rfl⟩

/-- A request about a party is answered with one message. -/
theorem RequestOutcome.sends (hquiet : ¬ msg.IsPublic) (h : RequestOutcome o s user msg s') :
    s.Sends user msg s' := by
  cases h with
  | refused _ text => exact .answer hquiet (Or.inl rfl) text rfl
  | created => exact .answer hquiet (Or.inr rfl) _ rfl
  | joined => exact .answer hquiet (Or.inr rfl) _ rfl
  | deleted => exact .answer hquiet (Or.inr rfl) _ rfl
  | deletedZero => exact .answer hquiet (Or.inl rfl) _ rfl
  | left => exact .answer hquiet (Or.inr rfl) _ rfl

/-- The other one is found among the users, and the requester is served. -/
theorem notifyBoth_sends (hquiet : ¬ msg.IsPublic) (db : MySQLManager)
    (other toOther toUser : Bytes) :
    s.Sends user msg
      (({ s with mySQLConnector := db } : TcpServer).notifyBoth other toOther user toUser) := by
  unfold notifyBoth
  cases hother : ({ s with mySQLConnector := db } : TcpServer).getUserByUserId other with
  | none => exact .answer hquiet (Or.inr rfl) toUser rfl
  | some session =>
    have hmem : session ∈ s.users := List.mem_of_find?_eq_some hother
    refine ⟨[(session, { messageType := .serverMessage, content := toOther }),
      (user, { messageType := .serverMessage, content := toUser })], ?_, .composed hquiet ?_⟩
    · exact List.append_assoc ..
    · intro p hp
      rcases List.mem_cons.mp hp with rfl | hp
      · exact ⟨Or.inr hmem, Or.inr (Or.inl rfl), rfl, rfl, rfl⟩
      · rw [List.mem_singleton] at hp
        subst hp
        exact ⟨Or.inl rfl, Or.inr (Or.inl rfl), rfl, rfl, rfl⟩

theorem tryOrReport_sends {α : Type} {work : Sql α} {notify : TcpServer → α → TcpServer}
    (hquiet : ¬ msg.IsPublic)
    (hnotify : ∀ db a, s.Sends user msg (notify { s with mySQLConnector := db } a))
    (h : s.tryOrReport o user work notify = .ok s') : s.Sends user msg s' := by
  unfold tryOrReport at h
  split at h
  · exact Except.ok.inj h ▸ hnotify ..
  · exact Except.ok.inj h ▸ .answer hquiet (Or.inl rfl) _ rfl

theorem handleWhisperMessage_sends (htype : msg.messageType = .whisperMessage) :
    s.Sends user msg (s.handleWhisperMessage user msg) := by
  have hquiet : ¬ msg.IsPublic := by simp [ChatMessage.IsPublic, htype]
  unfold handleWhisperMessage
  by_cases hempty : msg.receiver = [] ∨ msg.content = []
  · rw [if_pos hempty]
    exact .answer hquiet (Or.inl rfl) _ rfl
  rw [if_neg hempty, sendWhisperMessage]
  by_cases hself : (s.sessions user).userEntity.userId = msg.receiver
  · rw [if_pos hself]
    exact .answer hquiet (Or.inl rfl) _ rfl
  rw [if_neg hself]
  split
  · rename_i session hfound
    exact ⟨[(session, msg)], rfl, .toOne htype (List.mem_of_find?_eq_some hfound)⟩
  · exact .answer hquiet (Or.inl rfl) _ rfl

theorem handlePartyMessage_sends (htype : msg.messageType = .partyMessage) :
    s.Sends user msg (s.handlePartyMessage user msg) := by
  have hquiet : ¬ msg.IsPublic := by simp [ChatMessage.IsPublic, htype]
  unfold handlePartyMessage
  by_cases hcontent : msg.content = []
  · rw [if_pos hcontent]
    exact .answer hquiet (Or.inl rfl) _ rfl
  rw [if_neg hcontent]
  cases s.partyManager.findPartyById (s.sessions user).partyId with
  | none => exact .answer hquiet (Or.inl rfl) _ rfl
  | some party =>
    refine ⟨_, rfl, .toParty htype fun v hv => ?_⟩
    obtain ⟨id, -, hid⟩ := List.mem_filterMap.mp hv
    exact List.mem_of_find?_eq_some hid

theorem handleAllMessage_sends (htype : msg.messageType = .allMessage) :
    s.Sends user msg (s.handleAllMessage msg) := by
  unfold handleAllMessage
  by_cases hcontent : msg.content = []
  · rw [if_pos hcontent]
    exact .nothing (fun hpublic => hpublic.2 hcontent) rfl
  · rw [if_neg hcontent]
    have hcopy : ({ msg with messageType := .allMessage } : ChatMessage) = msg := by rw [← htype]
    refine ⟨_, rfl, ?_⟩
    rw [hcopy]
    exact .toAll ⟨htype, hcontent⟩

/-- **What `OnMessage` sends.** -/
theorem onMessage_sends (h : s.onMessage o user msg = .ok s') : s.Sends user msg s' := by
  have hquiet {messageType : ChatMessageType} (htype : msg.messageType = messageType)
      (hne : messageType ≠ .allMessage) : ¬ msg.IsPublic := fun hpublic =>
    hne (htype.symm.trans hpublic.1)
  cases htype : msg.messageType with simp only [onMessage, htype] at h
  | serverPing =>
    unfold handleServerPing at h
    cases hstoll : stoll msg.content with
    | error e => simp [hstoll, Except.map] at h
    | ok n =>
      rw [hstoll] at h
      exact Except.ok.inj h ▸ .nothing (hquiet htype (by decide)) rfl
  | allMessage => exact Except.ok.inj h ▸ handleAllMessage_sends htype
  | whisperMessage => exact Except.ok.inj h ▸ handleWhisperMessage_sends htype
  | partyMessage => exact Except.ok.inj h ▸ handlePartyMessage_sends htype
  | partyCreate =>
    exact (logged_eq_ok.mp h).2 ▸
      (handlePartyCreate_outcome htype).sends (hquiet htype (by decide))
  | partyDelete =>
    exact (logged_eq_ok.mp h).2 ▸
      (handlePartyDelete_outcome htype).sends (hquiet htype (by decide))
  | partyJoin =>
    exact (logged_eq_ok.mp h).2 ▸
      (handlePartyJoin_outcome htype).sends (hquiet htype (by decide))
  | partyLeave =>
    exact (logged_eq_ok.mp h).2 ▸
      (handlePartyLeave_outcome htype).sends (hquiet htype (by decide))
  | friendRequest | friendAccept | friendReject =>
    exact tryOrReport_sends (hquiet htype (by decide))
      (fun db _ => notifyBoth_sends (hquiet htype (by decide)) db ..) h
  | serverMessage | loginMessage | errorMessage =>
    exact Except.ok.inj h ▸ .answer (hquiet htype (by decide)) (Or.inl rfl) _ rfl
  | other =>
    exact Except.ok.inj h ▸ .answer (hquiet htype (by simp)) (Or.inl rfl) _ rfl

/-- Only the users and their connections matter. -/
theorem Replies.congr {new : List (SessionRef × ChatMessage)} (h : s.Replies user msg new)
    (husers : s'.users = s.users) (hconnected : s'.isConnected = s.isConnected) :
    s'.Replies user msg new := by
  cases h with
  | composed hquiet hnew => exact .composed hquiet (husers ▸ hnew)
  | toAll hpublic =>
    rw [← husers, ← hconnected]
    exact .toAll hpublic
  | toOne htype hv => exact .toOne htype (husers ▸ hv)
  | toParty htype htargets => exact .toParty htype (husers ▸ htargets)

/-- Whatever is sent goes to a user or to the session that is served. -/
theorem Replies.recipient {new : List (SessionRef × ChatMessage)} (h : s.Replies user msg new) :
    ∀ p ∈ new, p.1 = user ∨ p.1 ∈ s.users := by
  intro p hp
  cases h with
  | composed _ hnew => exact (hnew p hp).1
  | toAll =>
    obtain ⟨v, hv, rfl⟩ := List.mem_map.mp hp
    exact Or.inr (List.mem_of_mem_filter hv)
  | toOne _ hv =>
    rw [List.mem_singleton] at hp
    subst hp
    exact Or.inr hv
  | toParty _ htargets =>
    obtain ⟨v, hv, rfl⟩ := List.mem_map.mp hp
    exact Or.inr (htargets v hv)

/-- It is composed, or it is the message itself, which is then of a type that is relayed. -/
theorem Replies.content {new : List (SessionRef × ChatMessage)} (h : s.Replies user msg new) :
    ∀ p ∈ new, IsComposed p.2 ∨ IsRelayed msg ∧ p.2 = msg := by
  intro p hp
  cases h with
  | composed _ hnew => exact Or.inl (hnew p hp).2
  | toAll hpublic =>
    obtain ⟨v, -, rfl⟩ := List.mem_map.mp hp
    exact Or.inr ⟨Or.inl hpublic.1, rfl⟩
  | toOne htype =>
    rw [List.mem_singleton] at hp
    subst hp
    exact Or.inr ⟨Or.inr (Or.inr htype), rfl⟩
  | toParty htype =>
    obtain ⟨v, -, rfl⟩ := List.mem_map.mp hp
    exact Or.inr ⟨Or.inr (Or.inl htype), rfl⟩

/-- An admission is announced to the session, and to the one that it logs out. -/
theorem admitUser_sends (s : TcpServer) (user : SessionRef) :
    ∃ new, (s.admitUser user).posted = s.posted ++ new ∧
      ∀ p ∈ new, (p.1 = user ∨ p.1 ∈ s.users) ∧ IsComposed p.2 := by
  let logout : ChatMessage :=
    { messageType := .serverMessage, content := ascii "Logged out due to duplicate login." }
  let login : ChatMessage := { messageType := .loginMessage, content := ascii "Login Success!!" }
  have hlogin : ∀ p ∈ [(user, login)], (p.1 = user ∨ p.1 ∈ s.users) ∧ IsComposed p.2 := by
    intro p hp
    rw [List.mem_singleton] at hp
    subst hp
    exact ⟨Or.inl rfl, Or.inr (Or.inr rfl), rfl, rfl, rfl⟩
  unfold admitUser
  cases hold : s.getUserById (s.sessions user).id with
  | none => exact ⟨[(user, login)], rfl, hlogin⟩
  | some old =>
    refine ⟨[(old, logout)] ++ [(user, login)], List.append_assoc .., fun p hp => ?_⟩
    rcases List.mem_append.mp hp with hp | hp
    · rw [List.mem_singleton] at hp
      subst hp
      exact ⟨Or.inr (List.mem_of_find?_eq_some hold), Or.inr (Or.inl rfl), rfl, rfl, rfl⟩
    · exact hlogin p hp

end TcpServer

/-! ## What a step sends -/

variable {parse : Bytes → Option ChatMessage} {s t : Sys} {a : Action}

/-- The calls of `Send` that a step makes. -/
inductive Sending (s t : Sys) : List (SessionRef × ChatMessage) → Prop
  | quiet (hdispatched : t.dispatched = s.dispatched) : Sending s t []
  | admitting {l : Login} {new : List (SessionRef × ChatMessage)}
      (hadmitted : t.admitted = l :: s.admitted) (hdispatched : t.dispatched = s.dispatched)
      (hnew : ∀ p ∈ new, (p.1 = l.session ∨ p.1 ∈ s.srv.users) ∧ IsComposed p.2) :
      Sending s t new
  | serving {user : SessionRef} {msg : ChatMessage} {new : List (SessionRef × ChatMessage)}
      (hcurrent : s.current = some user) (hdispatched : t.dispatched = (user, msg) :: s.dispatched)
      (hreplies : s.srv.Replies user msg new) : Sending s t new

theorem step_sends (heffect : Effect parse s a t) :
    ∃ new, t.srv.posted = s.srv.posted ++ new ∧ Sending s t new := by
  cases heffect with
  | @admitted env user rest session =>
    obtain ⟨new, hposted, hnew⟩ := (s.srv.taken user rest session).admitUser_sends user
    exact ⟨new, hposted, .admitting rfl rfl hnew⟩
  | @dispatch o user msg input output srv hcurrent hpending hmessage =>
    obtain ⟨new, hposted, hreplies⟩ := TcpServer.onMessage_sends hmessage
    refine ⟨new, hposted, .serving hcurrent rfl (hreplies.congr rfl ?_)⟩
    -- taking a message from a queue closes nothing
    funext v
    exact (TcpServer.setSession_congr (·.isActive)
      (UserSession.withQueues_isActive _ input output) v).symm
  | _ => exact ⟨[], (List.append_nil _).symm, .quiet rfl⟩

/-- Dispatches are never forgotten. -/
theorem Sending.dispatched_subset {new : List (SessionRef × ChatMessage)} (h : Sending s t new)
    {d : SessionRef × ChatMessage} (hd : d ∈ s.dispatched) : d ∈ t.dispatched := by
  cases h with
  | quiet hdispatched | admitting _ hdispatched =>
    rw [hdispatched]
    exact hd
  | serving _ hdispatched =>
    rw [hdispatched]
    exact List.mem_cons_of_mem _ hd

/-! ## Where messages come from -/

/-- Whatever has been sent went to a session that was admitted, and was composed or handed
to `OnMessage`. -/
def Sourced (s : Sys) : Prop :=
  ∀ p ∈ s.srv.posted, (∃ l ∈ s.admitted, l.session = p.1) ∧
    (IsComposed p.2 ∨ IsRelayed p.2 ∧ ∃ d ∈ s.dispatched, d.2 = p.2)

/-- **Step lemma.** -/
theorem sourced_step (hadm : Admission s) (hid : Identified s) (h : Sourced s)
    (heffect : Effect parse s a t) : Sourced t := by
  obtain ⟨new, hposted, hsending⟩ := step_sends heffect
  have hmore : ∀ v, (∃ l ∈ s.admitted, l.session = v) → ∃ l ∈ t.admitted, l.session = v := by
    rintro v ⟨l, hl, hsession⟩
    exact ⟨l, step_admitted_subset hadm heffect hl, hsession⟩
  intro p hp
  rw [hposted, List.mem_append] at hp
  rcases hp with hp | hp
  · obtain ⟨hrecipient, hcontent⟩ := h p hp
    refine ⟨hmore p.1 hrecipient, hcontent.imp_right fun ⟨hrelayed, d, hd, heq⟩ => ?_⟩
    exact ⟨hrelayed, d, hsending.dispatched_subset hd, heq⟩
  · cases hsending with
    | quiet => exact absurd hp List.not_mem_nil
    | @admitting l _ hadmitted _ hnew =>
      obtain ⟨hrecipient, hcomposed⟩ := hnew p hp
      refine ⟨?_, Or.inl hcomposed⟩
      rcases hrecipient with heq | hmem
      · exact ⟨l, by rw [hadmitted]; exact List.mem_cons_self, heq.symm⟩
      · exact hmore p.1 (hid.users p.1 hmem)
    | @serving user msg _ hcurrent hdispatched hreplies =>
      refine ⟨hmore p.1 ?_, (hreplies.content p hp).imp_right fun ⟨hrelayed, heq⟩ => ?_⟩
      · rcases hreplies.recipient p hp with heq | hmem
        · exact heq ▸ hid.serving user hcurrent
        · exact hid.users p.1 hmem
      · rw [heq]
        exact ⟨hrelayed, (user, msg), by rw [hdispatched]; exact List.mem_cons_self, rfl⟩

/-- **Run lemma.** -/
theorem sourced_of_run {maxUser : UInt32} {as : List Action}
    (hrun : Run (step parse) anyStep (Sys.start maxUser) as s) : Sourced s :=
  (invariant_of_run (P := Sourced) (fun _ h => absurd h List.not_mem_nil)
    (fun _ _ _ hadm hid h _ heffect => sourced_step hadm hid h heffect) hrun).2.2

/-- Whatever has been dispatched was sent by a session that was admitted. -/
theorem Conserved.admitted (h : Conserved s) {d : SessionRef × ChatMessage}
    (hd : d ∈ s.dispatched) : ∃ l ∈ s.admitted, l.session = d.1 := by
  by_contra hnot
  obtain ⟨attempts, hline⟩ := h.line d.1
  have hnone := hline.stranger fun l hl hsession => hnot ⟨l, hl, hsession⟩
  exact List.ne_nil_of_mem (mem_ofSession hd) hnone

/-- **Nothing is made up.** Whatever the server sends goes to a session that was admitted.
It is composed by the server, or it is a public, a party or a whisper message that an
admitted session has sent, with its receiver, its content and its unknown fields: only the
sender has been written by the server. -/
theorem posted_source {maxUser : UInt32} {as : List Action}
    (hrun : Run (step parse) anyStep (Sys.start maxUser) as s) :
    ∀ p ∈ s.srv.posted, (∃ l ∈ s.admitted, l.session = p.1) ∧
      (IsComposed p.2 ∨ IsRelayed p.2 ∧ ∃ d ∈ s.dispatched, d.2 = p.2 ∧
        (∃ l ∈ s.admitted, l.session = d.1) ∧
        ∃ sent, (d.1, sent) ∈ s.received ∧ p.2 = { sent with sender := p.2.sender }) := by
  have hconserved := conserved_of_run hrun
  intro p hp
  obtain ⟨hrecipient, hcontent⟩ := sourced_of_run hrun p hp
  refine ⟨hrecipient, hcontent.imp_right ?_⟩
  rintro ⟨hrelayed, d, hd, heq⟩
  exact ⟨hrelayed, d, hd, heq, hconserved.admitted hd, heq ▸ hconserved.sent hd⟩

/-- What `ann` says to everybody is what `bob` gets, under her name. -/
theorem posted_source_annWaits :
    ∃ s : Sys, (1, { hi with sender := ascii "ann" }) ∈ s.srv.posted ∧
      ∃ d ∈ s.dispatched, d.2 = { hi with sender := ascii "ann" } ∧
        ∃ sent, (d.1, sent) ∈ s.received ∧
          ({ hi with sender := ascii "ann" } : ChatMessage) =
            { sent with sender := ascii "ann" } := by
  obtain ⟨s, hrun, hs⟩ := exists_run_of_exec (step (parseSerialized [login "a", login "b", hi]))
    anyStep (Sys.start 5) annWaits
    (fun s => decide ((1, { hi with sender := ascii "ann" }) ∈ s.srv.posted)) (by decide)
  have hposted := of_decide_eq_true hs
  obtain ⟨-, hcomposed | ⟨-, d, hd, heq, -, hsent⟩⟩ := posted_source hrun _ hposted
  · exact absurd (Or.inl rfl) hcomposed.not_relayed
  · exact ⟨s, hposted, d, hd, heq, hsent⟩

/-! ## Sessions that have left -/

/-- The messages that were sent to a session. -/
def sentTo (v : SessionRef) (posted : List (SessionRef × ChatMessage)) : List ChatMessage :=
  (posted.filter fun p => p.1 == v).map (·.2)

theorem sentTo_append (v : SessionRef) (posted new : List (SessionRef × ChatMessage)) :
    sentTo v (posted ++ new) = sentTo v posted ++ sentTo v new := by
  rw [sentTo, List.filter_append, List.map_append, sentTo, sentTo]

theorem sentTo_eq_nil {v : SessionRef} {new : List (SessionRef × ChatMessage)}
    (h : ∀ p ∈ new, p.1 ≠ v) : sentTo v new = [] := by
  rw [sentTo, List.map_eq_nil_iff, List.filter_eq_nil_iff]
  intro p hp
  rw [beq_iff_eq]
  exact h p hp

/-- The session was admitted, is no user any more, and is not served either. -/
structure Departed (s : Sys) (u : SessionRef) : Prop where
  admitted : ∃ l ∈ s.admitted, l.session = u
  left : u ∉ s.srv.users
  unserved : s.current ≠ some u

/-- Nobody who has left waits to be admitted. -/
theorem Departed.not_new {u : SessionRef} (h : Departed s u) (hid : Identified s) :
    u ∉ s.srv.newUsers := by
  obtain ⟨l, hl, rfl⟩ := h.admitted
  exact (hid.known l hl).2

/-- Nobody comes back: an admission is of a session that waits. -/
theorem departed_step (hadm : Admission s) (hid : Identified s) {u : SessionRef}
    (h : Departed s u) (heffect : Effect parse s a t) : Departed t u := by
  have hnot := h.not_new hid
  obtain ⟨l, hl, hsession⟩ := h.admitted
  refine ⟨⟨l, step_admitted_subset hadm heffect hl, hsession⟩, fun hu => ?_, fun hu => ?_⟩
  · rcases step_containers hadm heffect with
      ⟨-, hsub, -⟩ | ⟨-, l', -, -, -, hnew, -, husers, -⟩
    · exact h.left (hsub.subset hu)
    · rcases husers u hu with hold | rfl
      · exact h.left hold
      · exact hnot (by simp [hnew])
  · exact (step_current heffect hu).elim h.unserved h.left

/-- Nothing is sent to a session that has left, and nothing is dispatched for it. -/
theorem Departed.silent (hadm : Admission s) (hid : Identified s) {u : SessionRef}
    (h : Departed s u) (heffect : Effect parse s a t) :
    sentTo u t.srv.posted = sentTo u s.srv.posted ∧
      ofSession u t.dispatched = ofSession u s.dispatched := by
  obtain ⟨new, hposted, hsending⟩ := step_sends heffect
  have hne : ∀ {v}, v ∈ s.srv.users → v ≠ u := fun hv heq => h.left (heq ▸ hv)
  rw [hposted, sentTo_append]
  cases hsending with
  | quiet hdispatched => exact ⟨List.append_nil _, by rw [hdispatched]⟩
  | @admitting l _ hadmitted hdispatched hnew =>
    have hothers : ∀ p ∈ new, p.1 ≠ u := by
      intro p hp
      rcases (hnew p hp).1 with heq | hmem
      · -- the session that is admitted was never admitted before
        rintro rfl
        obtain ⟨l', hl', hsession⟩ := h.admitted
        have honce := (identified_step hadm hid heffect).once
        rw [hadmitted, List.map_cons, List.nodup_cons] at honce
        exact honce.1 (List.mem_map.mpr ⟨l', hl', hsession.trans heq⟩)
      · exact hne hmem
    exact ⟨by rw [sentTo_eq_nil hothers, List.append_nil], by rw [hdispatched]⟩
  | @serving user msg _ hcurrent hdispatched hreplies =>
    have huser : user ≠ u := by
      rintro rfl
      exact h.unserved hcurrent
    have hothers : ∀ p ∈ new, p.1 ≠ u := by
      intro p hp
      rcases hreplies.recipient p hp with heq | hmem
      · exact heq ▸ huser
      · exact hne hmem
    exact ⟨by rw [sentTo_eq_nil hothers, List.append_nil],
      by rw [hdispatched, ofSession_cons_of_ne huser]⟩

/-- **Logged out for good.** Once a session that was admitted is no user any more, and
`Update` is not in the middle of its messages, nothing is ever sent to it again, nothing
that it has sent is dispatched any more, and it never becomes a user again. -/
theorem departed_silence {maxUser : UInt32} {as bs : List Action} {u : SessionRef}
    (hstart : Run (step parse) anyStep (Sys.start maxUser) as s)
    (hrun : Run (step parse) anyStep s bs t) (hadmitted : ∃ l ∈ s.admitted, l.session = u)
    (hleft : u ∉ s.srv.users) (hunserved : s.current ≠ some u) :
    sentTo u t.srv.posted = sentTo u s.srv.posted ∧
      ofSession u t.dispatched = ofSession u s.dispatched ∧ u ∉ t.srv.users := by
  obtain ⟨hadm, hid⟩ := identified_of_run hstart
  have hend : Admission t ∧ Identified t ∧ Departed t u ∧
      sentTo u t.srv.posted = sentTo u s.srv.posted ∧
      ofSession u t.dispatched = ofSession u s.dispatched := by
    refine hrun.invariant (I := fun t => Admission t ∧ Identified t ∧ Departed t u ∧
      sentTo u t.srv.posted = sentTo u s.srv.posted ∧
      ofSession u t.dispatched = ofSession u s.dispatched) ?_
      ⟨hadm, hid, ⟨hadmitted, hleft, hunserved⟩, rfl, rfl⟩
    rintro x a y ⟨hadm, hid, hdeparted, hsent, hdispatched⟩ - hstep
    have heffect := step_effect hstep
    obtain ⟨hsent', hdispatched'⟩ := hdeparted.silent hadm hid heffect
    exact ⟨admission_step hadm heffect, identified_step hadm hid heffect,
      departed_step hadm hid hdeparted heffect, hsent'.trans hsent, hdispatched'.trans hdispatched⟩
  obtain ⟨-, -, hdeparted, hsent, hdispatched⟩ := hend
  exact ⟨hsent, hdispatched, hdeparted.left⟩

/-- After `annTwice`, the second session says something to everybody. -/
def annGoesOn : List Action := [.receive 1 hi.serialize, .visit 1, .dispatch {}, .finish]

/-- The first one does not hear it: the last it got is that it was logged out. -/
theorem departed_silence_annTwice :
    ∃ t : Sys, ofSession 1 t.dispatched = [hi] ∧
      (sentTo 0 t.srv.posted).map (·.content) =
        [ascii "Login Success!!", ascii "Logged out due to duplicate login."] := by
  obtain ⟨s, hstart, hs⟩ := exists_run_of_exec (step (parseSerialized [login "a", hi])) anyStep
    (Sys.start 5) annTwice
    (fun s => decide (s.admitted.map (·.session) = [1, 0] ∧ s.srv.users = [1] ∧
      s.current = none ∧ (sentTo 0 s.srv.posted).map (·.content) =
        [ascii "Login Success!!", ascii "Logged out due to duplicate login."])) (by decide)
  obtain ⟨t, hwhole, ht⟩ := exists_run_of_exec (step (parseSerialized [login "a", hi])) anyStep
    (Sys.start 5) (annTwice ++ annGoesOn)
    (fun t => decide (ofSession 1 t.dispatched = [hi])) (by decide)
  obtain ⟨hadmitted, husers, hcurrent, hsent⟩ := of_decide_eq_true hs
  obtain ⟨s', hfirst, hrun⟩ := hwhole.split
  obtain rfl := hstart.unique hfirst
  have hzero : ∃ l ∈ s.admitted, l.session = 0 := by
    have hmem : 0 ∈ s.admitted.map (·.session) := by simp [hadmitted]
    exact List.mem_map.mp hmem
  obtain ⟨hsilent, -, -⟩ := departed_silence hstart hrun hzero (by simp [husers])
    (by simp [hcurrent])
  exact ⟨t, of_decide_eq_true ht, by rw [hsilent, hsent]⟩

/-! ## The order of what is relayed -/

/-- The messages of a kind that were sent to a session. -/
def sentOf (kind : ChatMessage → Bool) (v : SessionRef)
    (posted : List (SessionRef × ChatMessage)) : List ChatMessage :=
  (sentTo v posted).filter kind

theorem sentOf_append (kind : ChatMessage → Bool) (v : SessionRef)
    (posted new : List (SessionRef × ChatMessage)) :
    sentOf kind v (posted ++ new) = sentOf kind v posted ++ sentOf kind v new := by
  rw [sentOf, sentTo_append, List.filter_append, sentOf, sentOf]

/-- Nothing of the kind is among the new messages. -/
theorem sentOf_eq_nil {kind : ChatMessage → Bool} (v : SessionRef)
    {new : List (SessionRef × ChatMessage)} (h : ∀ p ∈ new, kind p.2 = false) :
    sentOf kind v new = [] := by
  rw [sentOf, List.filter_eq_nil_iff]
  intro msg hmsg
  obtain ⟨p, hp, rfl⟩ := List.mem_map.mp hmsg
  rw [h p (List.mem_of_mem_filter hp)]
  decide

/-- Each occurrence among the targets makes one copy. -/
theorem sentTo_copies (v : SessionRef) (targets : List SessionRef) (msg : ChatMessage) :
    sentTo v (targets.map fun u => (u, msg)) = List.replicate (targets.count v) msg := by
  induction targets with
  | nil => rfl
  | cons u targets ih =>
    rw [List.map_cons, ← List.singleton_append, sentTo_append, ih, List.count_cons]
    by_cases hu : u = v
    · subst hu
      simp [sentTo, List.replicate_succ]
    · simp [sentTo, hu]

theorem sentOf_copies {kind : ChatMessage → Bool} {msg : ChatMessage} (hkind : kind msg = true)
    (v : SessionRef) (targets : List SessionRef) :
    sentOf kind v (targets.map fun u => (u, msg)) = List.replicate (targets.count v) msg := by
  rw [sentOf, sentTo_copies, List.filter_replicate, if_pos hkind]

/-- What the relaying of one message is worth to a session: so many copies. -/
def MayGet (copies : Nat) (msg : ChatMessage) : Prop :=
  (¬ IsRelayed msg → copies = 0) ∧ (msg.messageType ≠ .partyMessage → copies ≤ 1)

/-- The users are distinct, so only a party can name one of them twice. -/
theorem TcpServer.Replies.copies {srv : TcpServer} {user : SessionRef} {msg : ChatMessage}
    {new : List (SessionRef × ChatMessage)} (h : srv.Replies user msg new)
    (hnodup : srv.users.Nodup) (v : SessionRef) :
    ∃ copies, MayGet copies msg ∧
      sentOf (fun m => decide (IsRelayed m)) v new = List.replicate copies msg := by
  cases h with
  | composed _ hnew =>
    refine ⟨0, ⟨fun _ => rfl, fun _ => Nat.zero_le 1⟩, sentOf_eq_nil v fun p hp => ?_⟩
    exact decide_eq_false (hnew p hp).2.not_relayed
  | toAll hpublic =>
    have hrelayed : IsRelayed msg := Or.inl hpublic.1
    refine ⟨_, ⟨fun hnot => absurd hrelayed hnot, fun _ => ?_⟩,
      sentOf_copies (decide_eq_true hrelayed) v _⟩
    exact List.nodup_iff_count_le_one.mp (hnodup.filter _) v
  | @toOne u htype =>
    have hrelayed : IsRelayed msg := Or.inr (Or.inr htype)
    refine ⟨[u].count v, ⟨fun hnot => absurd hrelayed hnot, fun _ => ?_⟩,
      sentOf_copies (decide_eq_true hrelayed) v [u]⟩
    exact List.nodup_iff_count_le_one.mp (List.nodup_singleton u) v
  | toParty htype =>
    have hrelayed : IsRelayed msg := Or.inr (Or.inl htype)
    exact ⟨_, ⟨fun hnot => absurd hrelayed hnot, fun hne => absurd htype hne⟩,
      sentOf_copies (decide_eq_true hrelayed) v _⟩

/-- The relayed messages of a session are copies of the dispatched ones, in their order. -/
def InOrderTo (v : SessionRef) (s : Sys) : Prop :=
  ∃ copies : List (Nat × ChatMessage), copies.map (·.2) = s.dispatched.reverse.map (·.2) ∧
    (∀ c ∈ copies, MayGet c.1 c.2) ∧
    sentOf (fun m => decide (IsRelayed m)) v s.srv.posted =
      copies.flatMap fun c => List.replicate c.1 c.2

/-- **Step lemma.** -/
theorem inOrderTo_step (hadm : Admission s) {v : SessionRef} (h : InOrderTo v s)
    (heffect : Effect parse s a t) : InOrderTo v t := by
  obtain ⟨copies, hdispatches, hmay, horder⟩ := h
  obtain ⟨new, hposted, hsending⟩ := step_sends heffect
  cases hsending with
  | quiet hdispatched =>
    refine ⟨copies, by rw [hdispatches, hdispatched], hmay, ?_⟩
    rw [hposted, List.append_nil, horder]
  | admitting _ hdispatched hnew =>
    refine ⟨copies, by rw [hdispatches, hdispatched], hmay, ?_⟩
    rw [hposted, sentOf_append, horder, sentOf_eq_nil v, List.append_nil]
    exact fun p hp => decide_eq_false (hnew p hp).2.not_relayed
  | @serving user msg _ _ hdispatched hreplies =>
    obtain ⟨n, hn, hcopies⟩ := hreplies.copies (List.nodup_append.mp hadm.nodup).1 v
    refine ⟨copies ++ [(n, msg)], ?_, fun c hc => ?_, ?_⟩
    · rw [List.map_append, hdispatches, hdispatched, List.reverse_cons, List.map_append]
      rfl
    · rcases List.mem_append.mp hc with hc | hc
      · exact hmay c hc
      · rw [List.mem_singleton] at hc
        subst hc
        exact hn
    · rw [hposted, sentOf_append, horder, hcopies, List.flatMap_append, List.flatMap_singleton]

/-- **Run lemma.** -/
theorem inOrderTo_of_run {maxUser : UInt32} {as : List Action}
    (hrun : Run (step parse) anyStep (Sys.start maxUser) as s) (v : SessionRef) :
    InOrderTo v s :=
  (invariant_of_run (P := InOrderTo v) ⟨[], rfl, fun _ h => absurd h List.not_mem_nil, rfl⟩
    (fun _ _ _ hadm _ h _ heffect => inOrderTo_step hadm h heffect) hrun).2.2

/-- **One order for all.** The messages that are relayed to a session are those that
`OnMessage` was called with, in the order of the calls, each so many times: none is made
up, and a public message or a whisper is not repeated. So any two sessions get what both
get in the same order. -/
theorem relayed_in_order {maxUser : UInt32} {as : List Action}
    (hrun : Run (step parse) anyStep (Sys.start maxUser) as s) (v : SessionRef) :
    ∃ copies : List (Nat × ChatMessage), copies.map (·.2) = s.dispatched.reverse.map (·.2) ∧
      (∀ c ∈ copies, (¬ IsRelayed c.2 → c.1 = 0) ∧
        (c.2.messageType ≠ .partyMessage → c.1 ≤ 1)) ∧
      (sentTo v s.srv.posted).filter (fun m => decide (IsRelayed m)) =
        copies.flatMap fun c => List.replicate c.1 c.2 :=
  inOrderTo_of_run hrun v

/-- After `annWaits` one message has been dispatched, and `bob` has got one copy of it. -/
theorem relayed_in_order_annWaits :
    ∃ copies : List (Nat × ChatMessage),
      copies.map (·.2) = [{ hi with sender := ascii "ann" }] ∧ (∀ c ∈ copies, c.1 ≤ 1) ∧
      copies.flatMap (fun c => List.replicate c.1 c.2) = [{ hi with sender := ascii "ann" }] := by
  obtain ⟨s, hrun, hs⟩ := exists_run_of_exec (step (parseSerialized [login "a", login "b", hi]))
    anyStep (Sys.start 5) annWaits
    (fun s => decide (s.dispatched.map (·.2) = [{ hi with sender := ascii "ann" }] ∧
      (sentTo 1 s.srv.posted).filter (fun m => decide (IsRelayed m)) =
        [{ hi with sender := ascii "ann" }])) (by decide)
  obtain ⟨hdispatched, hsent⟩ := of_decide_eq_true hs
  obtain ⟨copies, hcopies, hmay, horder⟩ := relayed_in_order hrun 1
  rw [List.map_reverse, hdispatched] at hcopies
  refine ⟨copies, hcopies, fun c hc => (hmay c hc).2 ?_, horder.symm.trans hsent⟩
  -- the only message is a public one
  have hmem := List.mem_map_of_mem (f := (·.2)) hc
  rw [hcopies] at hmem
  rw [List.mem_singleton.mp hmem]
  decide

/-! ## Public messages -/

/-- The public messages among some dispatches, oldest first. -/
def publicOf (dispatched : List (SessionRef × ChatMessage)) : List ChatMessage :=
  (dispatched.reverse.map (·.2)).filter fun m => decide m.IsPublic

theorem publicOf_append (newer older : List (SessionRef × ChatMessage)) :
    publicOf (newer ++ older) = publicOf older ++ publicOf newer := by
  simp only [publicOf, List.reverse_append, List.map_append, List.filter_append]

theorem publicOf_cons (user : SessionRef) (msg : ChatMessage)
    (dispatched : List (SessionRef × ChatMessage)) :
    publicOf ((user, msg) :: dispatched) =
      publicOf dispatched ++ if msg.IsPublic then [msg] else [] := by
  rw [publicOf, List.reverse_cons, List.map_append, List.filter_append, publicOf]
  congr 1
  by_cases hpublic : msg.IsPublic <;> simp [hpublic]

/-- The session is a connected user. -/
def Listens (u : SessionRef) (s : Sys) : Prop := u ∈ s.srv.users ∧ s.srv.isConnected u = true

instance (u : SessionRef) (s : Sys) : Decidable (Listens u s) := inferInstanceAs (Decidable (_ ∧ _))

/-- A public message is sent once to each connected user, and to nobody else. -/
theorem TcpServer.Replies.public {srv : TcpServer} {user : SessionRef} {msg : ChatMessage}
    {new : List (SessionRef × ChatMessage)} (h : srv.Replies user msg new)
    (hnodup : srv.users.Nodup) (v : SessionRef) :
    sentOf (fun m => decide m.IsPublic) v new =
      if msg.IsPublic ∧ v ∈ srv.users ∧ srv.isConnected v = true then [msg] else [] := by
  have hnone (hquiet : ¬ msg.IsPublic) (hnew : ∀ p ∈ new, ¬ p.2.IsPublic) :
      sentOf (fun m => decide m.IsPublic) v new =
        if msg.IsPublic ∧ v ∈ srv.users ∧ srv.isConnected v = true then [msg] else [] := by
    rw [if_neg fun hall => hquiet hall.1, sentOf_eq_nil v]
    exact fun p hp => decide_eq_false (hnew p hp)
  cases h with
  | composed hquiet hnew =>
    refine hnone hquiet fun p hp hpublic => ?_
    exact (hnew p hp).2.not_relayed (Or.inl hpublic.1)
  | toAll hpublic =>
    rw [sentOf_copies (decide_eq_true hpublic)]
    by_cases hv : v ∈ srv.users ∧ srv.isConnected v = true
    · rw [if_pos ⟨hpublic, hv⟩, List.count_eq_one_of_mem (hnodup.filter _)
        (List.mem_filter.mpr hv)]
      rfl
    · rw [if_neg fun hall => hv hall.2, List.count_eq_zero_of_not_mem fun hmem =>
        hv (List.mem_filter.mp hmem)]
      rfl
  | toOne htype =>
    have hquiet : ¬ msg.IsPublic := by simp [ChatMessage.IsPublic, htype]
    refine hnone hquiet fun p hp => ?_
    rw [List.mem_singleton] at hp
    subst hp
    exact hquiet
  | toParty htype =>
    have hquiet : ¬ msg.IsPublic := by simp [ChatMessage.IsPublic, htype]
    refine hnone hquiet fun p hp => ?_
    obtain ⟨u, -, rfl⟩ := List.mem_map.mp hp
    exact hquiet

/-- What a step adds to the public messages of a session. -/
theorem step_public (hadm : Admission s) (heffect : Effect parse s a t) (u : SessionRef) :
    ∃ more, t.dispatched = more ++ s.dispatched ∧
      sentOf (fun m => decide m.IsPublic) u t.srv.posted =
        sentOf (fun m => decide m.IsPublic) u s.srv.posted ++
          if Listens u s then publicOf more else [] := by
  obtain ⟨new, hposted, hsending⟩ := step_sends heffect
  rw [hposted, sentOf_append]
  cases hsending with
  | quiet hdispatched =>
    refine ⟨[], hdispatched, congrArg _ ?_⟩
    split <;> rfl
  | @admitting _ new _ hdispatched hnew =>
    have hnone : sentOf (fun m => decide m.IsPublic) u new = [] :=
      sentOf_eq_nil u fun p hp => decide_eq_false fun hpublic =>
        (hnew p hp).2.not_relayed (Or.inl hpublic.1)
    refine ⟨[], hdispatched, congrArg _ (hnone.trans ?_)⟩
    split <;> rfl
  | @serving user msg _ _ hdispatched hreplies =>
    refine ⟨[(user, msg)], hdispatched, congrArg _ ?_⟩
    rw [hreplies.public (List.nodup_append.mp hadm.nodup).1 u, publicOf_cons]
    by_cases hlistens : Listens u s
    · rw [if_pos hlistens]
      by_cases hpublic : msg.IsPublic
      · rw [if_pos ⟨hpublic, hlistens⟩, if_pos hpublic]
        rfl
      · rw [if_neg fun hall => hpublic hall.1, if_neg hpublic]
        rfl
    · rw [if_neg hlistens, if_neg fun hall => hlistens hall.2]

/-- **Public messages.** As long as a session is a connected user it gets every public
message, once and in the order in which `OnMessage` was called with them; as long as it is
not, it gets none. All sessions that are connected users get the same messages. -/
theorem public_delivery {maxUser : UInt32} {as bs : List Action} {u : SessionRef}
    {listens : Bool} (hstart : Run (step parse) anyStep (Sys.start maxUser) as s)
    (hrun : Run (step parse) (fun x _ => decide (Listens u x) = listens) s bs t) :
    ∃ more, t.dispatched = more ++ s.dispatched ∧
      (sentTo u t.srv.posted).filter (fun m => decide m.IsPublic) =
        (sentTo u s.srv.posted).filter (fun m => decide m.IsPublic) ++
          if listens then publicOf more else [] := by
  have hend : Admission t ∧ ∃ more, t.dispatched = more ++ s.dispatched ∧
      sentOf (fun m => decide m.IsPublic) u t.srv.posted =
        sentOf (fun m => decide m.IsPublic) u s.srv.posted ++
          if listens then publicOf more else [] := by
    refine hrun.invariant (I := fun t => Admission t ∧ ∃ more, t.dispatched = more ++ s.dispatched ∧
      sentOf (fun m => decide m.IsPublic) u t.srv.posted =
        sentOf (fun m => decide m.IsPublic) u s.srv.posted ++
          if listens then publicOf more else []) ?_
      ⟨admission_of_run hstart, [], rfl, ?_⟩
    · rintro x a y ⟨hadm, more, hdispatched, hsent⟩ hlistens hstep
      have heffect := step_effect hstep
      obtain ⟨last, hlast, hsent'⟩ := step_public hadm heffect u
      refine ⟨admission_step hadm heffect, last ++ more, ?_, ?_⟩
      · rw [hlast, hdispatched, List.append_assoc]
      · rw [hsent', hsent, List.append_assoc]
        congr 1
        cases listens with
        | true =>
          rw [if_pos (of_decide_eq_true hlistens), if_pos rfl, if_pos rfl, publicOf_append]
        | false =>
          rw [if_neg (of_decide_eq_false hlistens)]
          rfl
    · cases listens <;> exact (List.append_nil _).symm
  exact hend.2

/-- What follows the two admissions in `annWaits`. -/
def annSpeaks : List Action := [.receive 0 hi.serialize, .visit 0, .dispatch {}]

/-- `bob`, who listens all along, gets what has been dispatched. -/
theorem public_delivery_annSpeaks :
    ∃ t : Sys, (sentTo 1 t.srv.posted).filter (fun m => decide m.IsPublic) =
      [{ hi with sender := ascii "ann" }] := by
  let parse := parseSerialized [login "a", login "b", hi]
  obtain ⟨s, hstart, hs⟩ := exists_run_of_exec (step parse) anyStep (Sys.start 5)
    (annWaits.take 7)
    (fun s => decide (s.dispatched = [] ∧
      (sentTo 1 s.srv.posted).filter (fun m => decide m.IsPublic) = [] ∧
      ((exec (step parse) (fun x _ => decide (Listens 1 x) = true) s annSpeaks).map fun t =>
        decide (t.dispatched.map (·.2) = [{ hi with sender := ascii "ann" }])) = some true))
    (by decide)
  obtain ⟨hdispatched, hsent, hgoes⟩ := of_decide_eq_true hs
  obtain ⟨t, hrun, ht⟩ := exists_run_of_exec (step parse) (fun x _ => decide (Listens 1 x) = true)
    s annSpeaks _ hgoes
  obtain ⟨more, hmore, hpublic⟩ := public_delivery hstart hrun
  refine ⟨t, ?_⟩
  rw [hpublic, hsent, if_pos rfl, List.nil_append, publicOf, List.map_reverse]
  rw [hdispatched, List.append_nil] at hmore
  rw [← hmore, of_decide_eq_true ht]
  rfl

end BoostChat.Server
