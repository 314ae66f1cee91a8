import BoostChat.Api.Requests
import BoostChat.Server.Identity

/-!
# The two servers together

The API server and the socket server share the table `user` and Redis. The joint
system interleaves the steps of both in any order, and keys expire at any time:

* a step of the socket server that looks up a login reads both stores as they are then;
* `issued` records which session ids were stored in Redis, and for which account;
* `deleted` records the accounts whose deletion was reported as a success.

No step reads the records.
-/

namespace BoostChat.Joint

open Lib

structure Sys where
  server : Server.Sys
  service : Api.Sys
  issued : List (Bytes × Nat) := []
  deleted : List Nat := []

/-- Both servers when they start, with an empty Redis. -/
def Sys.start (maxUser : UInt32) (table : List UserRow) : Sys where
  server := .start maxUser
  service := { api := .start table fun _ => none }

namespace Sys

def redis (s : Sys) : Server.Redis := s.service.api.redis

def table (s : Sys) : List UserRow := s.service.api.context.table

end Sys

inductive Action
  /-- Any step of the socket server but an iteration of the loop in `UpdateUsers`. -/
  | server (a : Server.Action)
  | examine (l : Server.LookUp)
  | service (a : Api.Action)
  | expire (key : Bytes)

variable (parse : Bytes → Option Server.ChatMessage) (pbkdf2 : Api.Pbkdf2)

def step (s : Sys) : Action → Option Sys
  | .server (.examine _) => none
  | .server a => (Server.step parse s.server a).map fun server => { s with server }
  | .examine l =>
    (Server.step parse s.server (.examine (l.env s.redis s.table))).map fun server =>
      { s with server }
  | .service a =>
    (Api.step pbkdf2 s.service a).map fun service =>
      { s with
        service
        issued := (s.service.stores a).toList ++ s.issued
        deleted := (s.service.deletes a).toList ++ s.deleted }
  | .expire key =>
    some { s with
      service.api.redis := Function.update s.service.api.redis key none }

/-- What a step of the joint system is: a step of one server, or the loss of a key. -/
inductive Effect (s : Sys) : Action → Sys → Prop
  | server {a : Server.Action} {server : Server.Sys} (hno : ∀ env, a ≠ .examine env)
      (hstep : Server.step parse s.server a = some server) :
      Effect s (.server a) { s with server }
  | examine {l : Server.LookUp} {server : Server.Sys}
      (hstep : Server.step parse s.server (.examine (l.env s.redis s.table)) = some server) :
      Effect s (.examine l) { s with server }
  | service {a : Api.Action} {service : Api.Sys}
      (hstep : Api.step pbkdf2 s.service a = some service) :
      Effect s (.service a) { s with
        service
        issued := (s.service.stores a).toList ++ s.issued
        deleted := (s.service.deletes a).toList ++ s.deleted }
  | expire {key : Bytes} :
      Effect s (.expire key) { s with
        service.api.redis := Function.update s.service.api.redis key none }

variable {parse pbkdf2} {s t : Sys}

/-- **Inversion.** -/
theorem step_effect {a : Action} (h : step parse pbkdf2 s a = some t) :
    Effect parse pbkdf2 s a t := by
  cases a with
  | server a =>
    cases a with
    | examine env => cases h
    | _ =>
      simp only [step, Option.map_eq_some_iff] at h
      obtain ⟨server, hstep, rfl⟩ := h
      exact .server (by rintro env ⟨⟩) hstep
  | examine l =>
    obtain ⟨server, hstep, rfl⟩ := Option.map_eq_some_iff.mp h
    exact .examine hstep
  | service a =>
    obtain ⟨service, hstep, rfl⟩ := Option.map_eq_some_iff.mp h
    exact .service hstep
  | expire key => exact Option.some.inj h ▸ .expire

/-- A step of the joint system is a step of the socket server, or none. -/
theorem step_server {a : Action} (h : step parse pbkdf2 s a = some t) :
    t.server = s.server ∨ ∃ b, Server.step parse s.server b = some t.server := by
  cases step_effect h with
  | server _ hstep => exact Or.inr ⟨_, hstep⟩
  | examine hstep => exact Or.inr ⟨_, hstep⟩
  | service => exact Or.inl rfl
  | expire => exact Or.inl rfl

/-- Every step keeps the invariant of the socket server. -/
theorem step_admission {a : Action} (hstep : step parse pbkdf2 s a = some t)
    (h : Server.Admission s.server) : Server.Admission t.server := by
  rcases step_server hstep with heq | ⟨b, hb⟩
  · rw [heq]
    exact h
  · exact Server.admission_step h (Server.step_effect hb)

/-- **Projection.** A run of the joint system is a run of the socket server, so its
invariants hold. -/
theorem identified_of_run {ok : Sys → Action → Prop} {maxUser : UInt32} {table : List UserRow}
    {as : List Action} (hrun : Run (step parse pbkdf2) ok (.start maxUser table) as s) :
    Server.Admission s.server ∧ Server.Identified s.server := by
  have hsim : ∀ s a t, ok s a → step parse pbkdf2 s a = some t → t.server = s.server ∨
      ∃ b, anyStep s.server b ∧ Server.step parse s.server b = some t.server :=
    fun _ _ _ _ hstep => (step_server hstep).imp_right fun ⟨b, hb⟩ => ⟨b, trivial, hb⟩
  obtain ⟨bs, hserver⟩ := hrun.simulate hsim
  exact Server.identified_of_run hserver

end BoostChat.Joint
