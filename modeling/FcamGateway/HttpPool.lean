import FcamGateway.Runs
import Mathlib.Data.List.DropRight
import Mathlib.Data.List.Induction
import Mathlib.Logic.Function.Basic

/-! The shared upstream clients. Calls on one pool interleave: what a call does under the
lock is one step, and each client that it closes after that is another. A client of an
acquire's own stays open until its context exits; a shared one until the pool gives it up. -/
namespace FcamGateway.HttpPool
open Runs

structure Client where
  id : Nat
  baseUrl : String
deriving DecidableEq

/-- `base_url.rstrip("/")`. -/
def rstrip (baseUrl : String) : String := String.ofList (baseUrl.toList.rdropWhile (· = '/'))

/-- The pool's own fields; `transport` says whether one was injected. -/
structure UpstreamHttpPool where
  enabled : Bool
  transport : Bool
  clients : List (String × Client)

namespace UpstreamHttpPool

def values (pool : UpstreamHttpPool) : List Client := pool.clients.map Prod.snd

/-- `self._clients[key] = client`: a key that is there keeps its place. -/
def store (pool : UpstreamHttpPool) (key : String) (client : Client) : UpstreamHttpPool :=
  { pool with
    clients := if (pool.clients.lookup key).isSome then
        pool.clients.map fun entry => if entry.1 = key then (key, client) else entry
      else pool.clients ++ [(key, client)] }

/-- `_get_pooled`, which holds the lock throughout. -/
def getPooled (pool : UpstreamHttpPool) (closed : List Client) (made : Nat) (baseUrl : String) :
    UpstreamHttpPool × Client :=
  match (pool.clients.lookup (rstrip baseUrl)).filter (· ∉ closed) with
  | some client => (pool, client)
  | none =>
    let client : Client := ⟨made, rstrip baseUrl⟩
    (pool.store (rstrip baseUrl) client, client)

/-- What `set_enabled` does under the lock, with the clients that it goes on to close. -/
def setEnabled (pool : UpstreamHttpPool) (want : Bool) : UpstreamHttpPool × List Client :=
  if pool.enabled = want then (pool, [])
  else if want then ({ pool with enabled := want }, [])
  else ({ pool with enabled := want, clients := [] }, pool.values)

/-- What `close` does under the lock, with the clients that it goes on to close. -/
def close (pool : UpstreamHttpPool) : UpstreamHttpPool × List Client :=
  ({ pool with clients := [] }, pool.values)

end UpstreamHttpPool

/-- How far a call on the pool has come. -/
inductive Phase
  | idle
  | acquiring (baseUrl : String)
  | pooling (baseUrl : String)
  | ephemeral (client : Client)
  | pooled (client : Client)
  | closing (clients : List Client)
  | done
deriving DecidableEq

structure State (Call : Type) where
  pool : UpstreamHttpPool
  made : Nat
  closed : List Client
  calls : Call → Phase

inductive Action (Call : Type)
  | acquire (call : Call) (baseUrl : String)
  | choose (call : Call)
  | getPooled (call : Call)
  | fail (call : Call)
  | exit (call : Call)
  | setEnabled (call : Call) (want : Bool)
  | close (call : Call)
  | closeNext (call : Call)

variable {Call : Type} [DecidableEq Call]

/-- The pool as `__init__` leaves it. -/
def State.start (enabled transport : Bool) : State Call :=
  { pool := ⟨enabled, transport, []⟩, made := 0, closed := [], calls := fun _ => .idle }

/-- The call comes to its next phase. -/
def State.move (state : State Call) (call : Call) (phase : Phase) : State Call :=
  { state with calls := Function.update state.calls call phase }

def step (state : State Call) : Action Call → Option (State Call)
  | .acquire call baseUrl =>
    match state.calls call with
    | .idle => some (state.move call (.acquiring baseUrl))
    | _ => none
  | .choose call =>
    match state.calls call with
    | .acquiring baseUrl =>
      -- the mode is read without the lock
      if state.pool.transport || !state.pool.enabled then
        some ({ state with made := state.made + 1 }.move call
          (.ephemeral ⟨state.made, rstrip baseUrl⟩))
      else some (state.move call (.pooling baseUrl))
    | _ => none
  | .getPooled call =>
    match state.calls call with
    | .pooling baseUrl =>
      let (pool, client) := state.pool.getPooled state.closed state.made baseUrl
      some ({ state with pool, made := state.made + 1 }.move call (.pooled client))
    | _ => none
  -- a client that cannot be made
  | .fail call =>
    match state.calls call with
    | .acquiring _ | .pooling _ => some (state.move call .done)
    | _ => none
  | .exit call =>
    match state.calls call with
    | .ephemeral client =>
      some ({ state with closed := client :: state.closed }.move call .done)
    | .pooled _ => some (state.move call .done)
    | _ => none
  | .setEnabled call want =>
    match state.calls call with
    | .idle =>
      let (pool, clients) := state.pool.setEnabled want
      some ({ state with pool }.move call (.closing clients))
    | _ => none
  | .close call =>
    match state.calls call with
    | .idle =>
      let (pool, clients) := state.pool.close
      some ({ state with pool }.move call (.closing clients))
    | _ => none
  | .closeNext call =>
    match state.calls call with
    | .closing (client :: rest) =>
      some ({ state with closed := client :: state.closed }.move call (.closing rest))
    | _ => none

end FcamGateway.HttpPool
