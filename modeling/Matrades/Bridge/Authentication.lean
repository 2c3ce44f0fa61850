import Matrades.Base.Dict
import Matrades.Base.Run
import Matrades.Shared.DomainTypes

/-!
# Authentication at the bridge

`authenticate` of `bridges/mt5/app.py`, as the steps between its awaits. A call begins: it takes the
time, drops the nonces older than a minute and refuses a nonce that is left. Once it has the body it
checks the timestamp, and either the signature itself or has the credential authority check it. An
accepted call records its nonce with the time it has begun at. Any number of calls may be under way.
-/

namespace Matrades

open Base

/-- What a caller signs and sends. -/
structure SignedRequest where
  body : List UInt8
  timestamp : String
  nonce : String
  signature : String
  deriving DecidableEq

/-- How far a timestamp may be from the clock. -/
def timestampWindow : Time := 30 * second

/-- The age from which a nonce is forgotten. -/
def nonceAge : Time := 60 * second

/-- The answer of the credential authority. -/
inductive AuthorityAnswer
  | accepted | unauthorized | unavailable
  deriving DecidableEq

/-- The bridge: `int` of a text, the check of a signature with the bridge's own secret, the client
certificate that is demanded, and whether a credential authority is asked. -/
structure Authenticator where
  int : String → Option Int
  signed : SignedRequest → Bool
  trustedFingerprint : String := ""
  asksAuthority : Bool := false

inductive CallPhase
  /-- The call waits for its body. -/
  | reading
  /-- It waits for the credential authority. -/
  | asking
  | ended
  deriving DecidableEq

structure AuthCall where
  request : SignedRequest
  began : Time
  phase : CallPhase
  deriving DecidableEq

structure AuthRun where
  clock : Time
  /-- `seen_nonces`. -/
  seen : Dict String Time
  /-- The calls so far, the first one first. -/
  calls : List AuthCall
  /-- The accepted requests. -/
  accepted : List SignedRequest

namespace AuthRun

def start : AuthRun := ⟨0, .empty, [], []⟩

inductive Label
  | begins (elapsed : Time) (request : SignedRequest) (fingerprint : Option String)
  /-- The body of the call with the index has arrived. -/
  | reads (elapsed : Time) (index : Nat)
  | answered (elapsed : Time) (index : Nat) (answer : AuthorityAnswer)

def Label.elapsed : Label → Time
  | begins elapsed _ _ => elapsed
  | reads elapsed _ => elapsed
  | answered elapsed _ _ => elapsed

/-- Is the timestamp within the window? -/
def fresh (a : Authenticator) (now : Time) (r : SignedRequest) : Bool :=
  (a.int r.timestamp).any fun timestamp =>
    |(now : Int) - timestamp * (second : Int)| ≤ (timestampWindow : Int)

/-- The nonces that are not older than a minute. -/
def prune (now : Time) (seen : Dict String Time) : Dict String Time :=
  seen.filter fun e => now ≤ e.2 + nonceAge

/-- Does the client show the certificate that is demanded? -/
def trusts (a : Authenticator) (fingerprint : Option String) : Bool :=
  a.trustedFingerprint = "" || fingerprint.getD "" = a.trustedFingerprint

def inPhase (s : AuthRun) (index : Nat) (c : AuthCall) (phase : CallPhase) : AuthRun :=
  { s with calls := s.calls.set index { c with phase } }

/-- The call is accepted: its nonce is recorded with the time at which it began. -/
def accept (s : AuthRun) (index : Nat) (c : AuthCall) : AuthRun :=
  { s.inPhase index c .ended with
    seen := s.seen.set c.request.nonce c.began
    accepted := s.accepted ++ [c.request] }

def begin (a : Authenticator) (s : AuthRun) (request : SignedRequest) (fingerprint : Option String) :
    AuthRun :=
  let seen := prune s.clock s.seen
  if (seen.get? request.nonce).isSome then { s with seen }
  else if trusts a fingerprint = false then { s with seen }
  else { s with seen, calls := s.calls ++ [⟨request, s.clock, .reading⟩] }

/-- A call that has its body. -/
def read (a : Authenticator) (s : AuthRun) (index : Nat) (c : AuthCall) : AuthRun :=
  if fresh a s.clock c.request = false then s.inPhase index c .ended
  else if a.asksAuthority then s.inPhase index c .asking
  else if a.signed c.request then s.accept index c
  else s.inPhase index c .ended

/-- A call that has the authority's answer. -/
def hear (s : AuthRun) (index : Nat) (c : AuthCall) (answer : AuthorityAnswer) : AuthRun :=
  if answer = .accepted then s.accept index c else s.inPhase index c .ended

/-- The next step at the time the clock shows. -/
def advance (a : Authenticator) (s : AuthRun) : Label → AuthRun
  | .begins _ request fingerprint => s.begin a request fingerprint
  | .reads _ index =>
    match s.calls[index]? with
    | some c => if c.phase = .reading then s.read a index c else s
    | none => s
  | .answered _ index answer =>
    match s.calls[index]? with
    | some c => if c.phase = .asking then s.hear index c answer else s
    | none => s

def step (a : Authenticator) (s : AuthRun) (l : Label) : AuthRun :=
  advance a { s with clock := s.clock + l.elapsed } l

end AuthRun

end Matrades
