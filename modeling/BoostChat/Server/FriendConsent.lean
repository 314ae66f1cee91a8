import BoostChat.Server.Friends

/-!
# Friendship needs consent

A row of `friendships` comes from an accept that found a pending request, and a pending
request comes from the handler of its sender. No handler reads the status of a request
before it accepts it: the affected rows of the `UPDATE` decide.

* `Consents` — an accept that turns a pending request into a friendship;
* `friendships_le_consents`, `friendships_le_requests` — each row has such an accept, and a
  request, of its own;
* `friendship_consent` — the main result, for any failures of calls, while the accounts that
  are named have keys of 32 bits. A longer key is cut, and the accept of one user's request
  is taken for that of another's (`friendship_of_another`).
-/

namespace BoostChat.Server

open Lib

/-! ## Properties that the tables keep -/

/-- **Both views of the tables.** What holds of the durable tables and of the ones that the
connection works on still holds of both, in a weaker form that also the new tables have. -/
theorem tables_step {Q Q' : Tables → Prop} {op : FriendOp} {db db' : MySQLManager}
    (hweaker : ∀ t, Q t → Q' t)
    (hnew : Q db.working → NewTables op db.working db'.working → Q' db'.working)
    (h : Q db.committed ∧ Q db.working) (hstep : friendStep db op = some db') :
    Q' db'.committed ∧ Q' db'.working := by
  obtain ⟨hcommitted, hworking⟩ := h
  rcases friendStep_tables hstep with ⟨hc, hw | hw⟩ | ⟨htables, hc | hc⟩
  · exact ⟨hc ▸ hweaker _ hcommitted, hw ▸ hweaker _ hworking⟩
  -- a rollback
  · exact ⟨hc ▸ hweaker _ hcommitted, hw ▸ hweaker _ hcommitted⟩
  -- changes that are left uncommitted, and changes that are committed
  · exact ⟨hc ▸ hweaker _ hcommitted, hnew hworking htables⟩
  · have hnew' := hnew hworking htables
    exact ⟨hc ▸ hnew', hnew'⟩

/-- Requests are pending or accepted. -/
def KnownStatus (t : Tables) : Prop :=
  ∀ row ∈ t.friendRequests, row.status = ascii "P" ∨ row.status = ascii "A"

theorem knownStatus_new {op : FriendOp} {t t' : Tables} (h : KnownStatus t)
    (hnew : NewTables op t t') : KnownStatus t' := by
  have hmarked (id id' : Bytes) : KnownStatus ((acceptRequest id id').query t).1 := by
    intro row hrow
    obtain ⟨old, hold, rfl⟩ := List.mem_map.mp hrow
    split
    · exact Or.inr rfl
    · exact h old hold
  cases hnew with
  | requested =>
    intro row hrow
    rcases List.mem_append.mp hrow with hold | hnew
    · exact h row hold
    · rw [List.mem_singleton.mp hnew]
      exact Or.inl rfl
  | marked => exact hmarked _ _
  | accepted => exact hmarked _ _
  | rejected => exact fun row hrow => h row (List.mem_filter.mp hrow).1

theorem knownStatus_step {op : FriendOp} {db db' : MySQLManager}
    (h : KnownStatus db.committed ∧ KnownStatus db.working) (hstep : friendStep db op = some db') :
    KnownStatus db'.committed ∧ KnownStatus db'.working :=
  tables_step (fun _ h => h) knownStatus_new h hstep

theorem knownStatus_start :
    KnownStatus ({} : MySQLManager).committed ∧ KnownStatus ({} : MySQLManager).working :=
  ⟨fun _ h => (nomatch h), fun _ h => (nomatch h)⟩

/-! ## Requests and accepts -/

/-- A FRIEND_REQUEST of `s` that names `r`. -/
def FriendOp.requests (s r : Bytes) (op : FriendOp) : Bool :=
  op.kind == .request && op.userId == s && op.namedKey == some r

/-- A FRIEND_ACCEPT of `r` that names `s`, finds a pending request from `s` to `r` and adds
the friendship. -/
def Consents (s r : Bytes) (db : MySQLManager) (op : FriendOp) : Bool :=
  op.kind == .accept && op.userId == r && op.namedKey == some s &&
    decide (⟨s, r, ascii "P"⟩ ∈ db.working.friendRequests) &&
    decide ((op.handle db).2.working.friendships = db.working.friendships ++ [⟨s, r⟩])

variable {s r : Bytes} {op : FriendOp} {t t' : Tables} {db db' : MySQLManager}

theorem FriendOp.requests_iff :
    op.requests s r = true ↔ op.kind = .request ∧ op.userId = s ∧ op.namedKey = some r := by
  simp [FriendOp.requests, and_assoc]

theorem consents_iff : Consents s r db op = true ↔
    op.kind = .accept ∧ op.userId = r ∧ op.namedKey = some s ∧
      ⟨s, r, ascii "P"⟩ ∈ db.working.friendRequests ∧
      (op.handle db).2.working.friendships = db.working.friendships ++ [⟨s, r⟩] := by
  simp [Consents, and_assoc]

/-- An `UPDATE` that affects a row found a pending request. -/
theorem pending_of_affected (hknown : KnownStatus t)
    (hrows : 0 < ((acceptRequest s r).query t).2) : ⟨s, r, ascii "P"⟩ ∈ t.friendRequests := by
  obtain ⟨row, hrow, hhit⟩ := List.countP_pos_iff.mp hrows
  rw [Bool.and_eq_true, FriendRequestRow.fromTo, Bool.and_eq_true, beq_iff_eq, beq_iff_eq,
    bne_iff_ne] at hhit
  obtain ⟨⟨rfl, rfl⟩, hstatus⟩ := hhit
  -- a row that was accepted before would not have been counted
  rcases hknown row hrow with hpending | haccepted
  · rw [← hpending]
    exact hrow
  · exact absurd haccepted hstatus

/-! ## Counting -/

/-- The friendships from `s` to `r`. -/
def Tables.friends (t : Tables) (s r : Bytes) : Nat := t.friendships.count ⟨s, r⟩

/-- The pending requests from `s` to `r`. -/
def Tables.pending (t : Tables) (s r : Bytes) : Nat := t.friendRequests.count ⟨s, r, ascii "P"⟩

/-- An `UPDATE` leaves nothing pending between its two users. -/
theorem pending_accept_self (t : Tables) (s r : Bytes) :
    ((acceptRequest s r).query t).1.pending s r = 0 := by
  refine List.count_eq_zero.mpr fun hmem => ?_
  obtain ⟨row, -, heq⟩ := List.mem_map.mp hmem
  split at heq
  · have hstatus : ascii "A" = ascii "P" := congrArg FriendRequestRow.status heq
    exact absurd hstatus (by decide)
  · rename_i hother
    rw [heq] at hother
    exact hother (by simp [FriendRequestRow.fromTo])

/-- An `UPDATE` leaves the requests between other users as they are. -/
theorem pending_accept_other (t : Tables) {s r id id' : Bytes} (hother : ¬ (s = id ∧ r = id')) :
    ((acceptRequest id id').query t).1.pending s r = t.pending s r := by
  simp only [Tables.pending, acceptRequest]
  induction t.friendRequests with
  | nil => rfl
  | cons row rows ih =>
    rw [List.map_cons, List.count_cons, List.count_cons, ih]
    by_cases hhit : row.fromTo id id' = true
    · have hne (status : Bytes) : (⟨row.senderId, row.receiverId, status⟩ : FriendRequestRow) ≠
          ⟨s, r, ascii "P"⟩ := by
        intro heq
        rw [FriendRequestRow.fromTo, Bool.and_eq_true, beq_iff_eq, beq_iff_eq] at hhit
        injection heq with hs hr
        exact hother ⟨hs.symm.trans hhit.1, hr.symm.trans hhit.2⟩
      rw [if_pos hhit, beq_false_of_ne (hne _), beq_false_of_ne (hne row.status)]
    · rw [if_neg hhit]

theorem pending_accept_le (t : Tables) (s r id id' : Bytes) :
    ((acceptRequest id id').query t).1.pending s r ≤ t.pending s r := by
  by_cases hself : s = id ∧ r = id'
  · obtain ⟨rfl, rfl⟩ := hself
    rw [pending_accept_self]
    exact Nat.zero_le _
  · exact Nat.le_of_eq (pending_accept_other t hself)

/-- An accept adds one friendship. -/
theorem friends_accepted (t : Tables) (s r id id' : Bytes) :
    ((insertFriendship id id').query ((acceptRequest id id').query t).1).1.friends s r =
      t.friends s r + if id = s ∧ id' = r then 1 else 0 := by
  simp [Tables.friends, insertFriendship, acceptRequest, List.count_append, List.count_singleton]

/-- **Accounting.** The friendships and the pending requests from `s` to `r` together grow
only by a request of `s` to `r`. -/
theorem new_friends_add_pending (hkey : op.KeyFits) (hknown : KnownStatus t)
    (hnew : NewTables op t t') :
    t'.friends s r + t'.pending s r ≤
      t.friends s r + t.pending s r + (op.requests s r).toNat := by
  cases hnew with
  | @requested id hkind hnamed =>
    have hcount : ((insertRequest op.userId id).query t).1.pending s r =
        t.pending s r + if op.userId = s ∧ id = r then 1 else 0 := by
      simp [Tables.pending, insertRequest, List.count_append, List.count_singleton]
    have hfriends : ((insertRequest op.userId id).query t).1.friends s r = t.friends s r := rfl
    rw [hcount, hfriends]
    by_cases hsame : op.userId = s ∧ id = r
    · have hrequests : op.requests s r = true :=
        FriendOp.requests_iff.mpr ⟨hkind, hsame.1, hkey.namedKey.trans (hsame.2 ▸ hnamed)⟩
      rw [if_pos hsame, hrequests, Bool.toNat_true]
      omega
    · rw [if_neg hsame]
      omega
  | @marked id hkind hnamed =>
    have hpending := pending_accept_le t s r id op.userId
    have hfriends : ((acceptRequest id op.userId).query t).1.friends s r = t.friends s r := rfl
    rw [hfriends]
    omega
  | @accepted id hkind hnamed hrows =>
    -- the new friendship uses up the request that the `UPDATE` found
    have hmem := pending_of_affected hknown hrows
    have hpending : ((insertFriendship id op.userId).query
        ((acceptRequest id op.userId).query t).1).1.pending s r =
          ((acceptRequest id op.userId).query t).1.pending s r := rfl
    rw [friends_accepted, hpending]
    by_cases hsame : id = s ∧ op.userId = r
    · obtain ⟨rfl, rfl⟩ := hsame
      have hpos : 0 < t.pending id op.userId := List.count_pos_iff.mpr hmem
      rw [if_pos ⟨rfl, rfl⟩, pending_accept_self]
      omega
    · have hle := pending_accept_le t s r id op.userId
      rw [if_neg hsame]
      omega
  | @rejected id hkind hnamed =>
    have hpending : ((deleteRequest id op.userId).query t).1.pending s r ≤ t.pending s r :=
      List.filter_sublist.count_le _
    have hfriends : ((deleteRequest id op.userId).query t).1.friends s r = t.friends s r := rfl
    rw [hfriends]
    omega

/-- The friendships and pending requests from `s` to `r` are at most `n` in both views of the
tables. -/
def Accounted (s r : Bytes) (n : Nat) (db : MySQLManager) : Prop :=
  (KnownStatus db.committed ∧ KnownStatus db.working) ∧
    db.committed.friends s r + db.committed.pending s r ≤ n ∧
    db.working.friends s r + db.working.pending s r ≤ n

theorem accounted_step {n : Nat} (h : Accounted s r n db) (hkey : op.KeyFits)
    (hstep : friendStep db op = some db') :
    Accounted s r (n + (op.requests s r).toNat) db' := by
  obtain ⟨hknown, hbounds⟩ := h
  have hweaker (t : Tables) (hle : t.friends s r + t.pending s r ≤ n) :
      t.friends s r + t.pending s r ≤ n + (op.requests s r).toNat := by omega
  refine ⟨knownStatus_step hknown hstep, tables_step hweaker (fun hle hnew => ?_) hbounds hstep⟩
  have hgrowth := new_friends_add_pending (s := s) (r := r) hkey hknown.2 hnew
  omega

/-- **Requests bound friendships.** -/
theorem friendships_le_requests {ops : List FriendOp}
    (hrun : Run friendStep (fun _ op => op.KeyFits) {} ops db) (s r : Bytes) :
    db.committed.friends s r ≤ ops.countP (FriendOp.requests s r) := by
  have hstart : Accounted s r ([].countP (FriendOp.requests s r)) ({} : MySQLManager) :=
    ⟨knownStatus_start, Nat.le_refl 0, Nat.le_refl 0⟩
  have hend := hrun.history
    (I := fun ops db => Accounted s r (ops.countP (FriendOp.requests s r)) db)
    (fun before db op db' h hkey hstep => ?_) hstart
  · have hbound := hend.2.1
    rw [List.nil_append] at hbound
    omega
  · have hcount : (before ++ [op]).countP (FriendOp.requests s r) =
        before.countP (FriendOp.requests s r) + (op.requests s r).toNat := by
      rw [List.countP_append, List.countP_singleton]
      cases op.requests s r <;> rfl
    rw [hcount]
    exact accounted_step h hkey hstep

/-- New friendships are those of accepts that consent. -/
theorem new_friends_le (hkey : op.KeyFits) (hknown : KnownStatus db.working)
    (hstep : friendStep db op = some db') (hnew : NewTables op db.working db'.working) :
    db'.working.friends s r ≤ db.working.friends s r + (Consents s r db op).toNat := by
  have hdb : (op.handle db).2 = db' := Option.some.inj hstep
  obtain ⟨t, ht⟩ : ∃ t, db'.working = t := ⟨_, rfl⟩
  rw [ht] at hnew ⊢
  cases hnew with
  | requested => exact Nat.le_add_right _ _
  | marked => exact Nat.le_add_right _ _
  | @accepted id hkind hnamed hrows =>
    rw [friends_accepted]
    by_cases hsame : id = s ∧ op.userId = r
    · obtain ⟨rfl, rfl⟩ := hsame
      have hconsents : Consents id op.userId db op = true := by
        refine consents_iff.mpr ⟨hkind, rfl, hkey.namedKey.trans hnamed,
          pending_of_affected hknown hrows, ?_⟩
        rw [hdb, ht]
        rfl
      rw [if_pos ⟨rfl, rfl⟩, hconsents]
      exact Nat.le_refl _
    · rw [if_neg hsame]
      exact Nat.le_add_right _ _
  | rejected => exact Nat.le_add_right _ _

/-- The friendships from `s` to `r` are at most `n` in both views of the tables. -/
def Consented (s r : Bytes) (n : Nat) (db : MySQLManager) : Prop :=
  (KnownStatus db.committed ∧ KnownStatus db.working) ∧
    db.committed.friends s r ≤ n ∧ db.working.friends s r ≤ n

theorem consented_step {n : Nat} (h : Consented s r n db) (hkey : op.KeyFits)
    (hstep : friendStep db op = some db') :
    Consented s r (n + (Consents s r db op).toNat) db' := by
  obtain ⟨hknown, hbounds⟩ := h
  have hweaker (t : Tables) (hle : t.friends s r ≤ n) :
      t.friends s r ≤ n + (Consents s r db op).toNat := by omega
  refine ⟨knownStatus_step hknown hstep, tables_step hweaker (fun hle hnew => ?_) hbounds hstep⟩
  have hgrowth := new_friends_le (s := s) (r := r) hkey hknown.2 hstep hnew
  omega

/-- **Accepts bound friendships.** -/
theorem friendships_le_consents {ops : List FriendOp}
    (hrun : Run friendStep (fun _ op => op.KeyFits) {} ops db) (s r : Bytes) :
    db.committed.friends s r ≤ stepCount friendStep (Consents s r) {} ops := by
  have hstart : Consented s r 0 {} := ⟨knownStatus_start, Nat.le_refl 0, Nat.le_refl 0⟩
  have hinv (n : Nat) (db : MySQLManager) (op : FriendOp) (db' : MySQLManager)
      (_ : n + (Consents s r db op).toNat ≤ 0 + stepCount friendStep (Consents s r) {} ops)
      (h : Consented s r n db) (hkey : op.KeyFits) (hstep : friendStep db op = some db') :
      Consented s r (n + (Consents s r db op).toNat) db' := consented_step h hkey hstep
  have hend := (hrun.counted hinv (Nat.le_refl _) hstart).2.1
  rwa [Nat.zero_add] at hend

/-! ## The request behind an accept -/

/-- There is a pending request from `s` to `r` in one of the two views of the tables. -/
def Pending (s r : Bytes) (db : MySQLManager) : Prop :=
  ⟨s, r, ascii "P"⟩ ∈ db.working.friendRequests ∨ ⟨s, r, ascii "P"⟩ ∈ db.committed.friendRequests

/-- Only a request makes a row pending. -/
theorem new_pending (hkey : op.KeyFits) (hnew : NewTables op t t')
    (hold : ⟨s, r, ascii "P"⟩ ∉ t.friendRequests)
    (hmem : ⟨s, r, ascii "P"⟩ ∈ t'.friendRequests) :
    op.requests s r = true ∧ t'.friendRequests = t.friendRequests ++ [⟨s, r, ascii "P"⟩] := by
  have hmarked (id id' : Bytes) :
      ⟨s, r, ascii "P"⟩ ∉ ((acceptRequest id id').query t).1.friendRequests := by
    intro h
    have hpos : 0 < ((acceptRequest id id').query t).1.pending s r := List.count_pos_iff.mpr h
    have hle := pending_accept_le t s r id id'
    exact hold (List.count_pos_iff.mp (Nat.lt_of_lt_of_le hpos hle))
  cases hnew with
  | @requested id hkind hnamed =>
    rcases List.mem_append.mp hmem with hmem | hmem
    · exact absurd hmem hold
    · have hrow := List.mem_singleton.mp hmem
      injection hrow with hs hr
      refine ⟨FriendOp.requests_iff.mpr
        ⟨hkind, hs.symm, hkey.namedKey.trans (hr ▸ hnamed)⟩, ?_⟩
      rw [hs, hr]
      rfl
  | marked => exact absurd hmem (hmarked _ _)
  | accepted => exact absurd hmem (hmarked _ _)
  | rejected => exact absurd (List.mem_filter.mp hmem).1 hold

theorem pending_step (hkey : op.KeyFits) (hstep : friendStep db op = some db')
    (hold : ¬ Pending s r db) (hnew : Pending s r db') : op.requests s r = true ∧
      db'.working.friendRequests = db.working.friendRequests ++ [⟨s, r, ascii "P"⟩] := by
  obtain ⟨hworking, hcommitted⟩ := not_or.mp hold
  rcases friendStep_tables hstep with ⟨hc, hw | hw⟩ | ⟨htables, hc⟩
  · rw [Pending, hc, hw] at hnew
    exact absurd hnew hold
  · rw [Pending, hc, hw, or_self] at hnew
    exact absurd hnew hcommitted
  · have hmem : ⟨s, r, ascii "P"⟩ ∈ db'.working.friendRequests := by
      rcases hnew with h | h
      · exact h
      · rcases hc with hc | hc
        · exact absurd (hc ▸ h) hcommitted
        · exact hc ▸ h
    exact new_pending hkey htables hworking hmem

/-- **The request of a pending row.** A row that is pending was inserted by a request of its
sender and has been pending ever since. -/
theorem pending_since {ops : List FriendOp}
    (hrun : Run friendStep (fun _ op => op.KeyFits) {} ops db) (hpending : Pending s r db) :
    ∃ pre req post u v, ops = pre ++ req :: post ∧ Run friendStep anyStep {} pre u ∧
      friendStep u req = some v ∧ req.requests s r = true ∧
      v.working.friendRequests = u.working.friendRequests ++ [⟨s, r, ascii "P"⟩] ∧
      Run friendStep (fun db _ => Pending s r db) v post db := by
  rcases hrun.since hpending with ⟨hstart | hstart, -⟩ |
    ⟨pre, req, post, u, v, hops, hpre, hstep, hold, hnew, hpost⟩
  · cases hstart
  · cases hstart
  · rw [hops] at hrun
    obtain ⟨_, -, hrest⟩ := hrun.split
    cases hrest with
    | cons hkey =>
      obtain ⟨hrequests, hinsert⟩ := pending_step hkey hstep hold hnew
      exact ⟨pre, req, post, u, v, hops, hpre.weaken fun _ _ _ => trivial, hstep, hrequests,
        hinsert, hpost.weaken fun _ _ h => h.2⟩

/-- **Friendship needs consent.** After every run of friend handlers over initially empty
tables that name accounts with keys of 32 bits, whichever calls fail: each durable friendship
from `s` to `r` has an accept by `r` of its own, made when a request from `s` to `r` was
pending, and this request was inserted by a FRIEND_REQUEST of `s` to `r` before it and was
pending from then on; and there are at most as many of these friendships as requests. -/
theorem friendship_consent {ops : List FriendOp} {db : MySQLManager}
    (hrun : Run friendStep (fun _ op => op.KeyFits) {} ops db) (s r : Bytes) :
    db.committed.friends s r ≤ stepCount friendStep (Consents s r) {} ops ∧
    (∀ pre op post u, ops = pre ++ op :: post → Run friendStep anyStep {} pre u →
      Consents s r u op = true →
      ∃ before req after v w, pre = before ++ req :: after ∧ Run friendStep anyStep {} before v ∧
        friendStep v req = some w ∧ req.requests s r = true ∧
        w.working.friendRequests = v.working.friendRequests ++ [⟨s, r, ascii "P"⟩] ∧
        Run friendStep (fun db _ => Pending s r db) w after u) ∧
    db.committed.friends s r ≤ ops.countP (FriendOp.requests s r) := by
  refine ⟨friendships_le_consents hrun s r, fun pre op post u hops hpre hconsents => ?_,
    friendships_le_requests hrun s r⟩
  rw [hops] at hrun
  obtain ⟨u', hpre', -⟩ := hrun.split
  obtain rfl := hpre'.unique hpre
  exact pending_since hpre' (Or.inl (consents_iff.mp hconsents).2.2.2.1)

/-- Account 1 asks account 2, which accepts. -/
theorem friendship_consent_bob : ∃ db,
    db.committed.friends (ascii "1") (ascii "2") = 1 ∧
    1 ≤ stepCount friendStep (Consents (ascii "1") (ascii "2")) {}
      [friendOp .request 1 "ann" "bob" [], friendOp .accept 2 "bob" "ann" []] ∧
    Run friendStep anyStep {}
      [friendOp .request 1 "ann" "bob" [], friendOp .accept 2 "bob" "ann" []] db := by
  obtain ⟨db, hrun, hdb⟩ := exists_run_of_exec friendStep (fun _ op => op.KeyFits) {}
    [friendOp .request 1 "ann" "bob" [], friendOp .accept 2 "bob" "ann" []]
    (fun db => db.committed.friends (ascii "1") (ascii "2") == 1) (by decide)
  have hone := eq_of_beq hdb
  have hconsent := (friendship_consent hrun (ascii "1") (ascii "2")).1
  rw [hone] at hconsent
  exact ⟨db, hone, hconsent, hrun.weaken fun _ _ _ => trivial⟩

/-- A call of a friend handler by `bob` whose message names `eve`. -/
def bobNamesEve (kind : FriendKind) : FriendOp :=
  { friendOp kind 2 "bob" "eve" [] with oracle := { users := fourAccounts ++ [eve] } }

/-- Account 1 asks account 2, which accepts a request of `eve`, who has not asked. Accounts 1
and 2 are friends. -/
theorem friendship_of_another :
    (bobNamesEve .accept).namedKey = some (decimal (2 ^ 32 + 1)) ∧
    ∃ db, Run friendStep anyStep {} [friendOp .request 1 "ann" "bob" [], bobNamesEve .accept] db ∧
      db.committed.friends (ascii "1") (ascii "2") = 1 ∧
      stepCount friendStep (Consents (ascii "1") (ascii "2")) {}
        [friendOp .request 1 "ann" "bob" [], bobNamesEve .accept] = 0 := by
  obtain ⟨db, hrun, hdb⟩ := exists_run_of_exec friendStep anyStep {}
    [friendOp .request 1 "ann" "bob" [], bobNamesEve .accept]
    (fun db => db.committed.friends (ascii "1") (ascii "2") == 1) (by decide)
  exact ⟨by decide, db, hrun, eq_of_beq hdb, by decide⟩

end BoostChat.Server
