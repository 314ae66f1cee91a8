import BoostChat.Basic
import Mathlib.Data.List.Basic
import Mathlib.Logic.Function.Basic

/-!
# The database context

`HStarContext`, the one Entity Framework context that all requests share, over the
table `user`. The context tracks entities: a tracking query returns the tracked
instance of a row, `Add` and `Update` make an entity pending, and `SaveChanges` writes
all pending entities in one transaction. When it throws, nothing is written and
everything stays pending.

The properties of an entity may hold `null`, but all of them are required: saving an
entity with a `null` throws. Rows are found by user id; the comparison is taken to be
that of the bytes. The keys that `AUTO_INCREMENT` assigns are greater than all that
are in the table, by a `gap` that the database chooses.
-/

namespace BoostChat.Api

/-- `UserEntity` of the API server. -/
structure UserEntity where
  id : Nat := 0
  userId : Option Bytes
  password : Option Bytes
  username : Option Bytes
  email : Option Bytes
  isAlive : Option Bytes
deriving DecidableEq

def UserEntity.ofRow (row : UserRow) : UserEntity where
  id := row.id
  userId := row.userId
  password := row.password
  username := row.username
  email := row.email
  isAlive := row.isAlive

/-- The row that saving an entity writes; `none` when a required property is `null`. -/
def UserEntity.toRow? (e : UserEntity) : Option UserRow := do
  return ⟨e.id, ← e.userId, ← e.password, ← e.username, ← e.email, ← e.isAlive⟩

/-- A tracked entity that is in the table, and whether it is in state `Modified`. -/
structure Entry where
  entity : UserEntity
  modified : Bool := false
deriving DecidableEq

structure HStarContext where
  table : List UserRow := []
  /-- The entities in state `Added`. -/
  added : List UserEntity := []
  /-- The tracked entities that are in the table, by key. -/
  tracked : Nat → Option Entry := fun _ => none

/-- What the database makes of a transaction. -/
structure SaveWorld where
  saveOk : Bool := true
  gap : Nat := 0
deriving DecidableEq

namespace HStarContext

/-- The rows with a user id, at most two of them (`SingleOrDefault` needs no more). -/
def rowsOf (ctx : HStarContext) (userId : Bytes) : List UserRow :=
  (ctx.table.filter fun row => row.userId == userId).take 2

/-- Begins to track a row, unless its entity is tracked already. -/
def track (ctx : HStarContext) (row : UserRow) : HStarContext :=
  match ctx.tracked row.id with
  | some _ => ctx
  | none =>
    { ctx with tracked := Function.update ctx.tracked row.id (some { entity := .ofRow row }) }

/-- `SingleOrDefaultAsync(x => x.UserId == userId)` without tracking; `none` for an exception:
the query fails, or there are two such rows. -/
def singleNoTracking (ctx : HStarContext) (queryOk : Bool) (userId : Bytes) :
    Option (Option UserRow) :=
  if queryOk then
    match ctx.rowsOf userId with
    | [] => some none
    | [row] => some (some row)
    -- more than one element
    | _ => none
  else none

/-- The tracking query: the key of the entity that it returns. -/
def single (ctx : HStarContext) (queryOk : Bool) (userId : Bytes) :
    HStarContext × Option (Option Nat) :=
  (if queryOk then (ctx.rowsOf userId).foldl track ctx else ctx,
    (ctx.singleNoTracking queryOk userId).map fun found => found.map (·.id))

/-- `_context.User.Add`. -/
def add (ctx : HStarContext) (e : UserEntity) : HStarContext :=
  { ctx with added := ctx.added ++ [e] }

/-- Assigns properties of a tracked entity and passes it to `_context.User.Update`. -/
def update (ctx : HStarContext) (id : Nat) (assign : UserEntity → UserEntity) : HStarContext :=
  let assigned := (ctx.tracked id).map fun entry =>
    { entity := assign entry.entity, modified := true : Entry }
  { ctx with tracked := Function.update ctx.tracked id assigned }

/-- What a row of the table becomes. -/
def savedRow (ctx : HStarContext) (row : UserRow) : Option UserRow :=
  match ctx.tracked row.id with
  | some entry => if entry.modified then entry.entity.toRow? else some row
  | none => some row

/-- The first key that the database assigns to an added entity. -/
def nextId (ctx : HStarContext) (gap : Nat) : Nat := (ctx.table.map (·.id)).foldr max 0 + 1 + gap

/-- The rows that the added entities become. -/
def newRows (ctx : HStarContext) (gap : Nat) : Option (List UserRow) :=
  ctx.added.zipIdx.mapM fun (e, i) => ({ e with id := ctx.nextId gap + i } : UserEntity).toRow?

/-- The context after a save that wrote these rows: nothing is pending. -/
def accept (ctx : HStarContext) (rows new : List UserRow) : HStarContext where
  table := rows ++ new
  tracked id :=
    match ctx.tracked id with
    | some entry => some { entry with modified := false }
    -- an added entity is tracked under the key that it has got
    | none => (new.find? fun row => row.id == id).map fun row => { entity := .ofRow row }

/-- `SaveChangesAsync`: the context afterwards, and whether it returned. -/
def saveChanges (ctx : HStarContext) (w : SaveWorld) : HStarContext × Bool :=
  match ctx.table.mapM ctx.savedRow, ctx.newRows w.gap with
  | some rows, some new => if w.saveOk then (ctx.accept rows new, true) else (ctx, false)
  -- a required property of a pending entity is `null`
  | _, _ => (ctx, false)

end HStarContext

end BoostChat.Api
