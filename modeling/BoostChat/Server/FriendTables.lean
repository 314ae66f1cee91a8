import BoostChat.Server.ConnectionMode
import BoostChat.Server.FriendConsent

/-!
# The two friend tables

`friend_requests` records that a request was accepted, `friendships` records the friendship.
The accept writes both; the reject deletes from the first only and looks at no status.

* `Agree` — a pair of users has one friendship when one of its requests is accepted, and
  none otherwise;
* `FaultlessTables` — what the handlers do to the tables when no call fails;
* `agree_step` — the tables go on agreeing in every step but one: a reject whose request is
  already accepted;
* `tables_agree` — the main result, over every run in which no call fails.
-/

namespace BoostChat.Server

open Lib MySQLManager

/-! ## Runs without failures -/

/-- No call of the handler fails. -/
def FriendOp.Faultless (op : FriendOp) : Prop := ∀ fault ∈ op.oracle.sqlFaults, fault = none

instance (op : FriendOp) : Decidable op.Faultless :=
  inferInstanceAs (Decidable (∀ _ ∈ _, _))

theorem failsWithin_faultless (n : Nat) :
    ∀ {faults : List (Option Bytes)}, (∀ fault ∈ faults, fault = none) →
      failsWithin n faults = none := by
  induction n with
  | zero => exact fun _ => rfl
  | succ n ih =>
    intro faults h
    match faults, h with
    | [], _ => rfl
    | none :: faults, h => exact ih fun fault hmem => h fault (List.mem_cons_of_mem _ hmem)
    | some error :: faults, h => exact absurd (h _ List.mem_cons_self) (Option.some_ne_none _)

theorem faultless_drop {faults : List (Option Bytes)} (h : ∀ fault ∈ faults, fault = none)
    (n : Nat) : ∀ fault ∈ faults.drop n, fault = none :=
  fun fault hmem => h fault (List.mem_of_mem_drop hmem)

theorem restores_faultless {faults : List (Option Bytes)} (h : ∀ fault ∈ faults, fault = none)
    (sts : List Statement) (t : Tables) : restores sts t faults = true := by
  rw [restores, failsWithin_faultless _ h]
  dsimp only
  rw [failsWithin_faultless _ (faultless_drop h _), Option.isNone_none]

/-- Only a statement that affects no row stops a transaction whose calls succeed. -/
theorem not_effective_of_stops {sts : List Statement} {t : Tables}
    {faults : List (Option Bytes)} (h : ∀ fault ∈ faults, fault = none)
    (hstops : Stops sts t faults) : effective sts t = false := by
  rcases hstops with heffective | ⟨faults', hfails⟩
  · exact heffective
  · rw [failsWithin_faultless _ h] at hfails
    cases hfails

/-- Without failures a transaction is committed, or rolled back for a statement that affects
no row. -/
theorem transacted_faultless {sts : List Statement} {db db' : MySQLManager}
    {res : Except StdException Unit} (hfaults : ∀ fault ∈ db.faults, fault = none)
    (h : Transacted sts db res db') :
    (effective sts db.working = false ∧ db'.committed = db.committed) ∨
    (effective sts db.working = true ∧ db'.committed = applyAll sts db.working) := by
  have hbegun := failsWithin_faultless 1 hfaults
  have hrest := faultless_drop hfaults 1
  cases h with
  | notBegun hbegin => exact absurd (hbegin.symm.trans hbegun) (Option.some_ne_none _)
  | notBegunRolledBack hbegin =>
    exact absurd (hbegin.symm.trans hbegun) (Option.some_ne_none _)
  | stuck _ _ _ _ _ hrestores =>
    exact absurd (hrestores.symm.trans (restores_faultless hrest _ _)) Bool.false_ne_true
  | rolledBack _ hstops => exact Or.inl ⟨not_effective_of_stops hrest hstops, rfl⟩
  | committed _ heffective => exact Or.inr ⟨heffective, rfl⟩

/-- What a handler makes of the tables when no call fails. -/
inductive FaultlessTables (op : FriendOp) (t : Tables) : Tables → Prop
  /-- In particular a reject that finds no request. -/
  | kept (hreject : op.kind = .reject → ∀ id, op.namedId = some id →
      ((deleteRequest id op.userId).query t).2 = 0) :
    FaultlessTables op t t
  | requested {id : Bytes} (hkind : op.kind = .request) (hnamed : op.namedId = some id)
    (hfree : countFriendRequests t op.userId id = 0 ∧ countFriendRequests t id op.userId = 0) :
    FaultlessTables op t ((insertRequest op.userId id).query t).1
  | accepted {id : Bytes} (hkind : op.kind = .accept) (hnamed : op.namedId = some id)
    (hrows : 0 < ((acceptRequest id op.userId).query t).2) :
    FaultlessTables op t
      ((insertFriendship id op.userId).query ((acceptRequest id op.userId).query t).1).1
  | rejected {id : Bytes} (hkind : op.kind = .reject) (hnamed : op.namedId = some id) :
    FaultlessTables op t ((deleteRequest id op.userId).query t).1

variable {op : FriendOp} {db db' : MySQLManager} {t t' : Tables}

theorem effective_reject {id : Bytes} (hkind : op.kind = .reject)
    (h : effective (op.statements id) t = false) :
    ((deleteRequest id op.userId).query t).2 = 0 := by
  rw [FriendOp.statements, hkind] at h
  rw [effective, effective, Bool.and_true, Bool.not_eq_false', decide_eq_true_eq] at h
  exact Nat.lt_one_iff.mp h

/-- **Faultless step.** A settled connection stays settled, and its tables become one of the
above. -/
theorem faultless_step (h : Settled db) (hfaults : op.Faultless)
    (hstep : friendStep db op = some db') :
    Settled db' ∧ FaultlessTables op db.committed db'.committed := by
  have hrest := faultless_drop hfaults 6
  have hmeets : op.restoresMode db = true := by
    rw [FriendOp.restoresMode, Option.all_eq_true]
    intro id _
    rw [restores_faultless (faultless_drop hrest 1), Bool.or_true]
  refine ⟨(settled_step h hstep).mpr hmeets, ?_⟩
  obtain ⟨res, heffect⟩ := friendStep_effect hstep
  cases heffect with
  | refused hnamed =>
    refine .kept fun _ id hid => ?_
    rw [hnamed] at hid
    cases hid
  | pending hkind =>
    refine .kept fun hreject => ?_
    rw [hkind] at hreject
    cases hreject
  | unsent hkind hfault => exact absurd (failsWithin_faultless 22 hfaults) hfault
  | @sent _ _ id hkind hnamed hfree =>
    have hcommitted : (db.execute (insertRequest op.userId id).query).committed =
        ((insertRequest op.userId id).query db.committed).1 := by
      rw [execute, ← h.2]
      exact if_pos h.1
    have hcounts := hfree (failsWithin_faultless 18 hfaults)
    rw [h.2] at hcounts
    rw [withFaults_committed, hcommitted]
    exact .requested hkind hnamed hcounts
  | @transacted res _ entity hkind hnamed htransacted =>
    have hid := FriendOp.namedId_of_named hnamed
    rcases transacted_faultless hrest htransacted with
      ⟨heffective, hcommitted⟩ | ⟨heffective, hcommitted⟩
    · -- a statement found no row
      rw [hcommitted, withFaults_committed]
      refine .kept fun hreject id hid' => ?_
      obtain rfl := Option.some.inj (hid.symm.trans hid')
      rw [withFaults_working, h.2] at heffective
      exact effective_reject hreject heffective
    · rw [hcommitted]
      rw [withFaults_working, h.2] at heffective ⊢
      cases hstatements : op.kind with
      | request => exact absurd hstatements hkind
      | accept =>
        rw [FriendOp.statements, hstatements] at heffective ⊢
        exact .accepted hstatements hid (effective_single (effective_dropLast heffective))
      | reject =>
        rw [FriendOp.statements, hstatements]
        exact .rejected hstatements hid

/-! ## Pairs of users -/

/-- `p` and `q` are `a` and `b`, in either order. -/
def samePair (a b p q : Bytes) : Bool := p == a && q == b || p == b && q == a

def FriendRequestRow.between (a b : Bytes) (row : FriendRequestRow) : Bool :=
  samePair a b row.senderId row.receiverId

def FriendshipRow.between (a b : Bytes) (row : FriendshipRow) : Bool :=
  samePair a b row.userId1 row.userId2

/-- Each pair of users has one friendship when one of its requests is accepted, and none
otherwise. -/
def Agree (t : Tables) : Prop :=
  ∀ a b, t.friendships.countP (FriendshipRow.between a b) =
    if ∃ row ∈ t.friendRequests, row.between a b = true ∧ row.status = ascii "A" then 1 else 0

/-- No pair of users has two requests. -/
def Single (t : Tables) : Prop :=
  ∀ a b, t.friendRequests.countP (FriendRequestRow.between a b) ≤ 1

/-- The accepted requests between two users. -/
def Tables.accepted (t : Tables) (a b : Bytes) : Nat :=
  t.friendRequests.countP fun row => row.between a b && row.status == ascii "A"

variable {a b p q : Bytes}

theorem samePair_iff : samePair a b p q = true ↔ p = a ∧ q = b ∨ p = b ∧ q = a := by
  simp [samePair]

theorem samePair_self (p q : Bytes) : samePair p q p q = true :=
  samePair_iff.mpr (Or.inl ⟨rfl, rfl⟩)

theorem between_of_fromTo {row : FriendRequestRow} (h : row.fromTo p q = true) :
    row.between a b = samePair a b p q := by
  rw [FriendRequestRow.fromTo, Bool.and_eq_true, beq_iff_eq, beq_iff_eq] at h
  rw [FriendRequestRow.between, h.1, h.2]

theorem between_eq_of_samePair (h : samePair a b p q = true) :
    FriendRequestRow.between a b = FriendRequestRow.between p q := by
  rcases samePair_iff.mp h with ⟨rfl, rfl⟩ | ⟨rfl, rfl⟩
  · rfl
  · funext row
    exact Bool.or_comm _ _

theorem accepted_le (t : Tables) (a b : Bytes) :
    t.accepted a b ≤ t.friendRequests.countP (FriendRequestRow.between a b) :=
  List.countP_mono_left fun _ _ h => (Bool.and_eq_true_iff.mp h).1

/-- Where no pair has two requests, agreement is a matter of counting. -/
theorem agree_iff (h : Single t) :
    Agree t ↔ ∀ a b, t.friendships.countP (FriendshipRow.between a b) = t.accepted a b := by
  have hcount (a b : Bytes) : (if ∃ row ∈ t.friendRequests, row.between a b = true ∧
      row.status = ascii "A" then 1 else 0) = t.accepted a b := by
    have hpos : (∃ row ∈ t.friendRequests, row.between a b = true ∧ row.status = ascii "A") ↔
        0 < t.accepted a b := by
      rw [Tables.accepted, List.countP_pos_iff]
      simp only [Bool.and_eq_true, beq_iff_eq]
    have hle := Nat.le_trans (accepted_le t a b) (h a b)
    by_cases hrow : 0 < t.accepted a b
    · rw [if_pos (hpos.mpr hrow)]
      omega
    · rw [if_neg fun hexists => hrow (hpos.mp hexists)]
      omega
  exact forall₂_congr fun a b => by rw [hcount]

/-! ## One handler -/

/-- With a known status, a row that is not counted is not there. -/
theorem none_between (hknown : KnownStatus t)
    (hfree : countFriendRequests t p q = 0 ∧ countFriendRequests t q p = 0) :
    t.friendRequests.countP (FriendRequestRow.between p q) = 0 := by
  rw [List.countP_eq_zero]
  intro row hrow hbetween
  have hstatus : (row.status == ascii "P" || row.status == ascii "A") = true := by
    rw [Bool.or_eq_true, beq_iff_eq, beq_iff_eq]
    exact hknown row hrow
  rcases samePair_iff.mp hbetween with ⟨hs, hr⟩ | ⟨hs, hr⟩
  · exact List.countP_eq_zero.mp hfree.1 row hrow (by rw [hs, hr, hstatus]; simp)
  · exact List.countP_eq_zero.mp hfree.2 row hrow (by rw [hs, hr, hstatus]; simp)

/-- A request between users who have none makes no pair's requests two. -/
theorem single_insert (hsingle : Single t)
    (hnone : t.friendRequests.countP (FriendRequestRow.between p q) = 0) :
    Single ((insertRequest p q).query t).1 := by
  intro a b
  have hnew : FriendRequestRow.between a b ⟨p, q, ascii "P"⟩ = samePair a b p q := rfl
  rw [insertRequest, List.countP_append, List.countP_singleton, hnew]
  have hle := hsingle a b
  by_cases hpair : samePair a b p q = true
  · rw [between_eq_of_samePair hpair, hnone]
    split <;> omega
  · rw [if_neg hpair]
    exact hle

theorem accepted_insert (t : Tables) (a b p q : Bytes) :
    ((insertRequest p q).query t).1.accepted a b = t.accepted a b := by
  have hpending : (ascii "P" == ascii "A") = false := by decide
  simp [Tables.accepted, insertRequest, List.countP_append, hpending]

theorem single_accept (hsingle : Single t) (p q : Bytes) :
    Single ((acceptRequest p q).query t).1 := by
  intro a b
  have hsame : (FriendRequestRow.between a b ∘ fun row : FriendRequestRow =>
      if row.fromTo p q then { row with status := ascii "A" } else row) =
        FriendRequestRow.between a b := by
    funext row
    dsimp only [Function.comp]
    split <;> rfl
  rw [acceptRequest, List.countP_map, hsame]
  exact hsingle a b

/-- An `UPDATE` makes the requests from `p` to `q` accepted ones. -/
theorem accepted_accept (t : Tables) (a b p q : Bytes) :
    ((acceptRequest p q).query t).1.accepted a b = t.friendRequests.countP fun row =>
      row.between a b && (row.fromTo p q || row.status == ascii "A") := by
  rw [Tables.accepted, acceptRequest, List.countP_map]
  refine List.countP_congr fun row _ => ?_
  dsimp only [Function.comp]
  by_cases hhit : row.fromTo p q = true
  · simp [hhit, FriendRequestRow.between]
  · simp [hhit]

/-- The pair of an accepted request gets its accepted request, and no other pair does. -/
theorem accepted_accept_eq (hsingle : Single t) (hrows : 0 < ((acceptRequest p q).query t).2)
    (a b : Bytes) : ((acceptRequest p q).query t).1.accepted a b =
      t.accepted a b + if samePair a b p q then 1 else 0 := by
  rw [accepted_accept]
  by_cases hpair : samePair a b p q = true
  · rw [if_pos hpair]
    -- the row that was changed is the only one of the pair
    have hone := hsingle a b
    have hhit : 0 < t.friendRequests.countP fun row =>
        row.between a b && !(row.status == ascii "A") := by
      refine Nat.lt_of_lt_of_le hrows (List.countP_mono_left fun row _ h => ?_)
      rw [Bool.and_eq_true] at h
      rw [between_of_fromTo h.1, hpair, Bool.true_and]
      exact h.2
    have hafter : 0 < t.friendRequests.countP fun row =>
        row.between a b && (row.fromTo p q || row.status == ascii "A") := by
      refine Nat.lt_of_lt_of_le hrows (List.countP_mono_left fun row _ h => ?_)
      rw [Bool.and_eq_true] at h
      rw [between_of_fromTo h.1, hpair, h.1]
      rfl
    have hafterle : (t.friendRequests.countP fun row =>
        row.between a b && (row.fromTo p q || row.status == ascii "A")) ≤
          t.friendRequests.countP (FriendRequestRow.between a b) :=
      List.countP_mono_left fun _ _ h => (Bool.and_eq_true_iff.mp h).1
    have hparts := List.countP_eq_countP_filter_add t.friendRequests
      (FriendRequestRow.between a b) fun row => row.status == ascii "A"
    rw [List.countP_filter, List.countP_filter, ← Tables.accepted] at hparts
    omega
  · rw [if_neg hpair, Nat.add_zero]
    refine List.countP_congr fun row _ => ?_
    by_cases hhit : row.fromTo p q = true
    · rw [between_of_fromTo hhit, eq_false_of_ne_true hpair]
      simp
    · simp [hhit]

theorem single_delete (hsingle : Single t) (p q : Bytes) :
    Single ((deleteRequest p q).query t).1 :=
  fun a b => Nat.le_trans (List.filter_sublist.countP_le) (hsingle a b)

theorem accepted_delete (t : Tables) (a b p q : Bytes) :
    ((deleteRequest p q).query t).1.accepted a b = t.friendRequests.countP fun row =>
      row.between a b && row.status == ascii "A" && !row.fromTo p q :=
  List.countP_filter

theorem row_eq_of_fromTo {row : FriendRequestRow} (hhit : row.fromTo p q = true)
    (hstatus : row.status = ascii "A") : row = ⟨p, q, ascii "A"⟩ := by
  rw [FriendRequestRow.fromTo, Bool.and_eq_true, beq_iff_eq, beq_iff_eq] at hhit
  obtain ⟨rfl, rfl⟩ := hhit
  rw [← hstatus]

/-- A `DELETE` that hits no accepted request leaves the accepted ones. -/
theorem accepted_delete_eq (hpending : ⟨p, q, ascii "A"⟩ ∉ t.friendRequests) (a b : Bytes) :
    ((deleteRequest p q).query t).1.accepted a b = t.accepted a b := by
  rw [accepted_delete]
  refine List.countP_congr fun row hrow => ?_
  rw [Bool.and_eq_true, and_iff_left_iff_imp, Bool.and_eq_true, beq_iff_eq, Bool.not_eq_true']
  intro haccepted
  refine eq_false_of_ne_true fun hhit => ?_
  exact hpending (row_eq_of_fromTo hhit haccepted.2 ▸ hrow)

/-- A `DELETE` that hits an accepted request leaves its pair without one. -/
theorem accepted_delete_lost (hsingle : Single t)
    (haccepted : ⟨p, q, ascii "A"⟩ ∈ t.friendRequests) :
    t.accepted p q = 1 ∧ ((deleteRequest p q).query t).1.accepted p q = 0 := by
  have hone := hsingle p q
  have hfromTo : FriendRequestRow.fromTo p q ⟨p, q, ascii "A"⟩ = true := by
    simp [FriendRequestRow.fromTo]
  have hbetween : FriendRequestRow.between p q ⟨p, q, ascii "A"⟩ = true := samePair_self p q
  constructor
  · have hle := accepted_le t p q
    have hpos : 0 < t.accepted p q :=
      List.countP_pos_iff.mpr ⟨_, haccepted, by rw [hbetween, beq_self_eq_true]; rfl⟩
    omega
  · -- the request that goes is the only one of the pair
    have hparts := List.countP_eq_countP_filter_add t.friendRequests
      (FriendRequestRow.between p q) (FriendRequestRow.fromTo p q)
    rw [List.countP_filter, List.countP_filter] at hparts
    have hgone : 0 < t.friendRequests.countP fun row => row.between p q && row.fromTo p q :=
      List.countP_pos_iff.mpr ⟨_, haccepted, by rw [hbetween, hfromTo]; rfl⟩
    have hle : ((deleteRequest p q).query t).1.accepted p q ≤
        t.friendRequests.countP fun row => row.between p q && !row.fromTo p q := by
      rw [accepted_delete]
      refine List.countP_mono_left fun row _ h => ?_
      rw [Bool.and_eq_true, Bool.and_eq_true] at h
      rw [h.1.1, h.2]
      rfl
    omega

/-- A reject that names a user whose request to the rejecting user is accepted. -/
def FriendOp.rejectsAccepted (t : Tables) (op : FriendOp) : Bool :=
  op.kind == .reject &&
    op.namedId.any fun id => decide (⟨id, op.userId, ascii "A"⟩ ∈ t.friendRequests)

theorem rejectsAccepted_of_other (h : op.kind ≠ .reject) : op.rejectsAccepted t = false := by
  rw [FriendOp.rejectsAccepted, beq_false_of_ne h, Bool.false_and]

theorem rejectsAccepted_iff {id : Bytes} (hkind : op.kind = .reject)
    (hnamed : op.namedId = some id) :
    op.rejectsAccepted t = false ↔ ⟨id, op.userId, ascii "A"⟩ ∉ t.friendRequests := by
  rw [FriendOp.rejectsAccepted, hkind, hnamed, beq_self_eq_true, Bool.true_and, Option.any_some,
    decide_eq_false_iff_not]

/-- **Step.** From tables that agree a handler makes tables that agree, except with a reject
of an accepted request. -/
theorem agree_step (hknown : KnownStatus t) (hsingle : Single t) (hagree : Agree t)
    (hnew : FaultlessTables op t t') :
    Single t' ∧ (Agree t' ↔ op.rejectsAccepted t = false) := by
  have hcounts := (agree_iff hsingle).mp hagree
  cases hnew with
  | kept hreject =>
    refine ⟨hsingle, iff_of_true hagree ?_⟩
    by_cases hkind : op.kind = .reject
    · cases hnamed : op.namedId with
      | none => rw [FriendOp.rejectsAccepted, hnamed, Option.any_none, Bool.and_false]
      | some id =>
        refine (rejectsAccepted_iff hkind hnamed).mpr fun hmem => ?_
        exact List.countP_eq_zero.mp (hreject hkind id hnamed) _ hmem
          (by simp [FriendRequestRow.fromTo])
    · exact rejectsAccepted_of_other hkind
  | @requested id hkind hnamed hfree =>
    have hsingle' := single_insert hsingle (none_between hknown hfree)
    refine ⟨hsingle', iff_of_true ((agree_iff hsingle').mpr fun a b => ?_)
      (rejectsAccepted_of_other (by rw [hkind]; decide))⟩
    rw [accepted_insert]
    exact hcounts a b
  | @accepted id hkind hnamed hrows =>
    have hsingle' : Single ((insertFriendship id op.userId).query
        ((acceptRequest id op.userId).query t).1).1 := single_accept hsingle id op.userId
    refine ⟨hsingle', iff_of_true ((agree_iff hsingle').mpr fun a b => ?_)
      (rejectsAccepted_of_other (by rw [hkind]; decide))⟩
    -- the accept adds a friendship and an accepted request to the same pair
    calc ((insertFriendship id op.userId).query
            ((acceptRequest id op.userId).query t).1).1.friendships.countP
              (FriendshipRow.between a b)
        = t.friendships.countP (FriendshipRow.between a b) +
            if samePair a b id op.userId then 1 else 0 := by
          rw [insertFriendship, List.countP_append, List.countP_singleton]
          rfl
      _ = t.accepted a b + if samePair a b id op.userId then 1 else 0 := by rw [hcounts a b]
      _ = ((acceptRequest id op.userId).query t).1.accepted a b :=
          (accepted_accept_eq hsingle hrows a b).symm
  | @rejected id hkind hnamed =>
    have hsingle' := single_delete hsingle id op.userId
    refine ⟨hsingle', ?_⟩
    rw [agree_iff hsingle', rejectsAccepted_iff hkind hnamed]
    constructor
    · intro hcounts' hmem
      -- the friendship of the accepted request is still there
      obtain ⟨hbefore, hafter⟩ := accepted_delete_lost hsingle hmem
      have hfriends : t.friendships.countP (FriendshipRow.between id op.userId) = 0 :=
        (hcounts' id op.userId).trans hafter
      have hfriend := hcounts id op.userId
      omega
    · intro hpending a b
      rw [accepted_delete_eq hpending]
      exact hcounts a b

/-! ## Runs -/

/-- What is known of the connection in any run without failures. -/
structure Regular (db : MySQLManager) : Prop where
  settled : Settled db
  known : KnownStatus db.committed ∧ KnownStatus db.working
  single : Single db.committed

/-- **The friend tables agree.** In a run from empty tables in which no call fails, the
tables agree after every handler exactly when no handler is a reject of an accepted
request. -/
theorem tables_agree {ops : List FriendOp} {db : MySQLManager}
    (hrun : Run friendStep (fun _ op => op.Faultless) {} ops db) :
    (∀ pre post u, ops = pre ++ post →
      Run friendStep (fun _ op => op.Faultless) {} pre u → Agree u.committed) ↔
    Run friendStep (fun db op => op.Faultless ∧ op.rejectsAccepted db.committed = false) {}
      ops db := by
  refine hrun.always_iff (I := fun db => Agree db.committed) (J := Regular)
    (fun db op db' hregular hagree hfaults hstep => ?_)
    ⟨⟨rfl, rfl⟩, knownStatus_start, fun _ _ => Nat.zero_le 1⟩
    (fun _ _ => rfl)
  obtain ⟨hsettled, htables⟩ := faultless_step hregular.settled hfaults hstep
  have hknown := knownStatus_step hregular.known hstep
  obtain ⟨hsingle, hiff⟩ := agree_step hregular.known.1 hregular.single hagree htables
  exact ⟨⟨hsettled, hknown, hsingle⟩, hiff⟩

/-- Account 1 asks account 2, which accepts. -/
theorem tables_agree_bob : ∃ db,
    Run friendStep (fun _ op => op.Faultless) {}
      [friendOp .request 1 "ann" "bob" [], friendOp .accept 2 "bob" "ann" []] db ∧
    ∀ pre post u, [friendOp .request 1 "ann" "bob" [], friendOp .accept 2 "bob" "ann" []] =
      pre ++ post → Run friendStep (fun _ op => op.Faultless) {} pre u → Agree u.committed := by
  obtain ⟨db, hrun, -⟩ := exists_run_of_exec friendStep
    (fun db op => op.Faultless ∧ op.rejectsAccepted db.committed = false) {}
    [friendOp .request 1 "ann" "bob" [], friendOp .accept 2 "bob" "ann" []]
    (fun _ => true) (by decide)
  have hfaultless : Run friendStep (fun _ op => op.Faultless) {} _ db :=
    hrun.weaken fun _ _ h => h.1
  exact ⟨db, hfaultless, (tables_agree hfaultless).mpr hrun⟩

/-- Account 1 asks account 2, which accepts and then rejects. -/
def acceptThenReject : List FriendOp :=
  [friendOp .request 1 "ann" "bob" [], friendOp .accept 2 "bob" "ann" [],
    friendOp .reject 2 "bob" "ann" []]

/-- The reject deletes the accepted request and leaves the friendship; with a new request
and a new accept the two become friends a second time. -/
theorem tables_disagree :
    (∃ db, Run friendStep (fun _ op => op.Faultless) {} acceptThenReject db ∧
      db.committed.friendRequests = [] ∧
      db.committed.friendships = [⟨ascii "1", ascii "2"⟩] ∧ ¬ Agree db.committed) ∧
    ∃ db, Run friendStep (fun _ op => op.Faultless) {}
        (acceptThenReject ++
          [friendOp .request 1 "ann" "bob" [], friendOp .accept 2 "bob" "ann" []]) db ∧
      db.committed.friendships = [⟨ascii "1", ascii "2"⟩, ⟨ascii "1", ascii "2"⟩] ∧
      ¬ Agree db.committed := by
  constructor
  · obtain ⟨db, hrun, htables⟩ := exists_run_committed (fun _ op => op.Faultless)
      acceptThenReject ⟨[], [⟨ascii "1", ascii "2"⟩]⟩ (by decide)
    refine ⟨db, hrun, by rw [htables], by rw [htables], ?_⟩
    rw [htables]
    exact fun hagree => absurd (hagree (ascii "1") (ascii "2")) (by decide)
  · obtain ⟨db, hrun, htables⟩ := exists_run_committed (fun _ op => op.Faultless)
      (acceptThenReject ++
        [friendOp .request 1 "ann" "bob" [], friendOp .accept 2 "bob" "ann" []])
      ⟨[⟨ascii "1", ascii "2", ascii "A"⟩],
        [⟨ascii "1", ascii "2"⟩, ⟨ascii "1", ascii "2"⟩]⟩ (by decide)
    refine ⟨db, hrun, by rw [htables], ?_⟩
    rw [htables]
    exact fun hagree => absurd (hagree (ascii "1") (ascii "2")) (by decide)

end BoostChat.Server
