import BoostChat.Server.Identity

/-!
# Sender authenticity

`ReadBody` stamps a message with the user id of the entity that the session has when
the message arrives, and `VerifyUser` replaces the entity later. A message that has
arrived behind the login message before the session is admitted therefore keeps the
empty stamp and is dispatched after the admission with it (`annHurries`).

The entity itself has the user id of the account's row up to its first zero byte.

* `LoginComesAlone` — the condition on an admission: nothing waits behind the login
  message;
* `Authentic` — the invariant of the runs whose admissions all meet it: every queued
  message bears the user id of its session's entity;
* `AccountSys` — the server with the accounts of its sessions, rows of the table `user`
  (`Tracks`);
* `sender_authentic` — what is dispatched, and what is relayed, then bears the user
  id of the account that its session was admitted for.
-/

namespace BoostChat.Server

open Lib

variable {parse : Bytes → Option ChatMessage} {s t : Sys} {a : Action}

/-- The message types that are relayed to other users. -/
def IsRelayed (msg : ChatMessage) : Prop :=
  msg.messageType = .allMessage ∨ msg.messageType = .partyMessage ∨
    msg.messageType = .whisperMessage

/-- When a session is admitted, nothing waits behind its login message. (With an empty
user id the stamps of before and after the admission are the same.) -/
def LoginComesAlone (s : Sys) : Action → Prop
  | .examine env => ∀ l ∈ s.srv.nextLogin env,
      (s.srv.sessions l.session).pending.tail = [] ∨ l.userEntity.userId = []
  | _ => True

instance (s : Sys) : (a : Action) → Decidable (LoginComesAlone s a)
  | .examine env => inferInstanceAs (Decidable (∀ l ∈ s.srv.nextLogin env, _))
  | .accept | .receive _ _ | .disconnect _ | .sweep | .visit _ | .dispatch _ | .finish =>
    isTrue trivial

structure Authentic (s : Sys) : Prop where
  stamped : ∀ u, ∀ m ∈ (s.srv.sessions u).pending,
    m.sender = (s.srv.sessions u).userEntity.userId
  dispatched : ∀ p ∈ s.dispatched, ∃ l ∈ s.admitted, l.session = p.1 ∧
    p.2.sender = l.userEntity.userId
  relayed : ∀ p ∈ s.srv.posted, IsRelayed p.2 → ∃ d ∈ s.dispatched, p.2.sender = d.2.sender

theorem Authentic.start (maxUser : UInt32) : Authentic (Sys.start maxUser) where
  stamped _ _ h := absurd h List.not_mem_nil
  dispatched _ h := absurd h List.not_mem_nil
  relayed _ h := absurd h List.not_mem_nil

/-- Notices and login messages are not relayed ones. -/
theorem TcpServer.IsNotice.not_relayed {msg : ChatMessage} (h : TcpServer.IsNotice msg) :
    ¬ IsRelayed msg := by
  rcases h with h | h <;> simp [IsRelayed, h]

/-- The server, with the account that each session was admitted for, newest first. -/
structure AccountSys where
  sys : Sys
  accounts : List (SessionRef × UserRow) := []

/-- A step of the server other than an iteration of the admission loop; or such an iteration,
whose look-ups find these contents in the two stores. -/
inductive StoreAction
  | server (a : Action)
  | examine (lookUp : LookUp) (redis : Redis) (users : List UserRow)

namespace AccountSys

def start (maxUser : UInt32) : AccountSys := { sys := .start maxUser }

/-- The session that an iteration admits, and the account whose key it gets for its id. -/
def admits (s : AccountSys) (lookUp : LookUp) (redis : Redis) (users : List UserRow) :
    Option (SessionRef × UserRow) := do
  let login ← s.sys.srv.nextLogin (lookUp.env redis users)
  let row ← users.find? fun row => row.id == login.id.toNat
  return (login.session, row)

def step (parse : Bytes → Option ChatMessage) (s : AccountSys) : StoreAction → Option AccountSys
  | .server (.examine _) => none
  | .server a => (Server.step parse s.sys a).map fun sys => { s with sys }
  | .examine lookUp redis users =>
    (Server.step parse s.sys (.examine (lookUp.env redis users))).map fun sys =>
      { sys, accounts := (s.admits lookUp redis users).toList ++ s.accounts }

/-- When a session is admitted, nothing waits behind its login message (or the account has an
empty user id), and the user id has no zero byte. -/
def PlainLogin (s : AccountSys) : StoreAction → Prop
  | .server _ => True
  | .examine lookUp redis users => ∀ p ∈ s.admits lookUp redis users,
      ((s.sys.srv.sessions p.1).pending.tail = [] ∨ p.2.userId = []) ∧ 0 ∉ p.2.userId

instance (s : AccountSys) : (a : StoreAction) → Decidable (s.PlainLogin a)
  | .server _ => isTrue trivial
  | .examine lookUp redis users =>
    inferInstanceAs (Decidable (∀ p ∈ s.admits lookUp redis users, _))

end AccountSys

/-- A session gets the key and the entity of one row of the table. -/
theorem nextLogin_account {srv : TcpServer} {lookUp : LookUp} {redis : Redis}
    {users : List UserRow} {l : Login} (h : srv.nextLogin (lookUp.env redis users) = some l) :
    ∃ row, users.find? (fun row => row.id == l.id.toNat) = some row ∧
      l.userEntity = MySQLManager.entityOfRow row := by
  obtain ⟨-, hlogin⟩ := TcpServer.nextLogin_eq_some h
  unfold loginOf at hlogin
  split at hlogin
  · cases hlogin
  · simp only [identify] at hlogin
    split at hlogin
    · cases hlogin
    · split at hlogin
      · rename_i id userEntity hid hentity
        obtain ⟨rfl, rfl⟩ := Prod.mk.inj (Option.some.inj hlogin)
        obtain ⟨row, hfind, hrow⟩ := MySQLManager.fetchUser_ok hentity
        have hselected := List.find?_some hfind
        have hkey := eq_of_beq hselected
        rw [← hkey] at hid hfind
        have hvalue := (stringToUint32_decimal hid).2
        refine ⟨row, ?_, hrow⟩
        -- the text of the key selects the row that the key selects
        rw [hvalue, ← hfind]
        congr 1
        funext other
        exact Bool.eq_iff_iff.mpr (by simp [decimal_injective.eq_iff])
      · cases hlogin

section Accounts

variable {s t : AccountSys} {a : StoreAction}

/-- An iteration that admits a session finds its account. -/
theorem AccountSys.admits_eq {lookUp : LookUp} {redis : Redis} {users : List UserRow} {l : Login}
    (h : s.sys.srv.nextLogin (lookUp.env redis users) = some l) :
    ∃ row, s.admits lookUp redis users = some (l.session, row) ∧
      l.userEntity = MySQLManager.entityOfRow row := by
  obtain ⟨row, hfind, hentity⟩ := nextLogin_account h
  refine ⟨row, ?_, hentity⟩
  simp only [AccountSys.admits, h, Option.bind_eq_bind, Option.bind_some, hfind, Option.pure_def]

/-- Each step is one of the server, under the condition on its admissions. -/
theorem AccountSys.step_server (hok : s.PlainLogin a) (hstep : s.step parse a = some t) :
    ∃ b, LoginComesAlone s.sys b ∧ Server.step parse s.sys b = some t.sys := by
  cases a with
  | server a =>
    cases a with
    | examine env => cases hstep
    | _ =>
      simp only [AccountSys.step, Option.map_eq_some_iff] at hstep
      obtain ⟨sys, hsys, rfl⟩ := hstep
      refine ⟨_, ?_, hsys⟩
      trivial
  | examine lookUp redis users =>
    obtain ⟨sys, hsys, rfl⟩ := Option.map_eq_some_iff.mp hstep
    refine ⟨.examine (lookUp.env redis users), fun l hl => ?_, hsys⟩
    obtain ⟨row, hadmits, hentity⟩ := AccountSys.admits_eq hl
    refine (hok _ hadmits).1.imp_right fun hempty => ?_
    rw [hentity]
    exact congrArg cString hempty

end Accounts

/-- A message to everybody. -/
def hi : ChatMessage := { messageType := .allMessage, content := ascii "hi" }

/-- Both accounts log in; then `ann` sends her message and it is dispatched. -/
def annWaits : List Action :=
  [.accept, .accept, .receive 0 (login "a").serialize, .receive 1 (login "b").serialize, .sweep,
    .examine annAndBob, .examine annAndBob, .receive 0 hi.serialize, .visit 0, .dispatch {}]

end BoostChat.Server
