/-
  Httpx/RateLimit.lean --- the request limit, from `httpx/middleware.go` and
  `router/router.go`.

  The router compares a route with the path in lower case and without trailing
  slashes; `RateLimitMiddleware` counts under a key that holds the path as the client
  sent it.  The machine is one minute of the limiter: requests are received, counted
  by an atomic `INCR`, and answered, and the steps of different requests interleave in
  any order.  A request whose counter is incremented after the minute is not one of
  the minute.
-/
import Nuvonode.Foundation.Machine
import Nuvonode.Foundation.Table
import Mathlib.Data.List.DropRight

set_option autoImplicit false

namespace Nuvonode.Httpx

open Nuvonode.Foundation

/-! ## The router -/

/-- The `POST` routes with a limit. -/
inductive LimitedRoute where
  | register | login | chatCompletions
  deriving DecidableEq

namespace LimitedRoute

def path : LimitedRoute → String
  | .register => "/api/auth/register"
  | .login => "/api/auth/login"
  | .chatCompletions => "/v1/chat/completions"

/-- The limit a route is registered with; that of chat completions is a setting. -/
def perMinute (defaultRateLimitPerMinute : Int) : LimitedRoute → Int
  | .register => 5
  | .login => 10
  | .chatCompletions => defaultRateLimitPerMinute

end LimitedRoute

/-- The path that Fiber compares with its routes: in lower case, as `CaseSensitive` is off, and
without trailing slashes, as `StrictRouting` is off. -/
def detectionPath (path : String) : String :=
  let lowered := path.toList.map Char.toLower
  String.ofList (if 1 < lowered.length then lowered.rdropWhile (· == '/') else lowered)

/-- The limited route that a `POST` request is dispatched to. -/
def dispatch (path : String) : Option LimitedRoute :=
  [.register, .login, .chatCompletions].find? fun route => route.path = detectionPath path

/-! ## Redis -/

/-- A counter, with the time at which it expires, in milliseconds. -/
structure Counter where
  key : String
  count : Nat
  expiresAt : Option Nat
  deriving DecidableEq

/-- The counter of a key that has not expired. -/
def liveCounter (now : Nat) (key : String) (counters : List Counter) : Option Counter :=
  (Table.select Counter.key counters key).filter fun counter =>
    !counter.expiresAt.any (· < now)

/-- `INCR`: a counter that is missing or has expired starts anew. -/
def incr (now : Nat) (key : String) (counters : List Counter) : Counter × List Counter :=
  let old := liveCounter now key counters
  let new : Counter :=
    { key, count := old.elim 0 Counter.count + 1, expiresAt := old.bind Counter.expiresAt }
  (new, Table.upsert Counter.key counters new)

/-- `EXPIRE`, of a number of milliseconds. -/
def expire (now : Nat) (key : String) (duration : Nat) (counters : List Counter) : List Counter :=
  match liveCounter now key counters with
  | none => counters
  | some counter =>
      Table.upsert Counter.key counters { counter with expiresAt := some (now + duration) }

/-- A counter that does not expire before a time. -/
def Counter.Lasts (time : Nat) (counter : Counter) : Prop :=
  ∀ expiry ∈ counter.expiresAt, time ≤ expiry

section Redis

variable {now time : Nat} {key : String} {counters : List Counter}

theorem liveCounter_of_lasts (hnow : now < time)
    (h : ∀ counter ∈ Table.select Counter.key counters key, counter.Lasts time) :
    liveCounter now key counters = Table.select Counter.key counters key := by
  unfold liveCounter
  cases hcounter : Table.select Counter.key counters key with
  | none => rfl
  | some counter =>
      have hlasts := h counter (by rw [hcounter]; rfl)
      have hlive : (!counter.expiresAt.any (· < now)) = true := by
        cases hexpiry : counter.expiresAt with
        | none => rfl
        | some expiry =>
            have hle : time ≤ expiry := hlasts expiry hexpiry
            simp only [Option.any_some, Bool.not_eq_true', decide_eq_false_iff_not]
            omega
      rw [Option.filter_some, if_pos hlive]

/-- `INCR` on a counter that has not expired counts one more, and touches no other. -/
theorem incr_of_lasts (key' : String) (hnow : now < time)
    (h : ∀ counter ∈ Table.select Counter.key counters key, counter.Lasts time) :
    (incr now key counters).1.count =
        (Table.select Counter.key counters key).elim 0 Counter.count + 1 ∧
      (incr now key counters).1.Lasts time ∧
      Table.select Counter.key (incr now key counters).2 key' =
        if key = key' then some (incr now key counters).1
        else Table.select Counter.key counters key' := by
  have hlive := liveCounter_of_lasts hnow h
  refine ⟨?_, ?_, Table.select_upsert⟩
  · simp only [incr, hlive]
  · intro expiry hexpiry
    simp only [incr, hlive, Option.mem_def, Option.bind_eq_some_iff] at hexpiry
    obtain ⟨counter, hcounter, htime⟩ := hexpiry
    exact h counter hcounter expiry htime

/-- `EXPIRE` keeps every count. -/
theorem expire_of_lasts {duration : Nat} (key' : String) (hnow : now < time)
    (hduration : time ≤ now + duration)
    (h : ∀ counter ∈ Table.select Counter.key counters key, counter.Lasts time)
    (hother : ∀ counter ∈ Table.select Counter.key counters key', counter.Lasts time) :
    (Table.select Counter.key (expire now key duration counters) key').map Counter.count =
        (Table.select Counter.key counters key').map Counter.count ∧
      ∀ counter ∈ Table.select Counter.key (expire now key duration counters) key',
        counter.Lasts time := by
  unfold expire
  rw [liveCounter_of_lasts hnow h]
  cases hcounter : Table.select Counter.key counters key with
  | none => exact ⟨rfl, hother⟩
  | some counter =>
      have hkey : counter.key = key := (Table.mem_of_select hcounter).2
      simp only [Table.select_upsert, hkey]
      by_cases hsame : key = key'
      · subst hsame
        simp only [if_true, hcounter]
        refine ⟨rfl, fun other hmem => ?_⟩
        cases hmem
        intro expiry hexpiry
        cases hexpiry
        exact hduration
      · simp only [if_neg hsame]
        exact ⟨trivial, hother⟩

end Redis

/-! ## The middleware -/

/-- The text of a client's address, `c.IP()`. -/
structure Address where
  text : String
  no_slash : '/' ∉ text.toList
  deriving DecidableEq

/-- The key of `RateLimitMiddleware`, with the text of the minute. -/
def rateKey (ip : Address) (path minute : String) : String :=
  "rate:" ++ ip.text ++ ":" ++ "POST" ++ ":" ++ path ++ ":" ++ minute

/-- How far a request has come.  A number is what `INCR` answered. -/
inductive Phase where
  | received
  | first
  | counted (n : Nat)
  | refused (n : Nat)
  /-- In the handler; without a number when the limit is off. -/
  | reached (n : Option Nat)
  deriving DecidableEq

namespace Phase

/-- What `INCR` answered. -/
def number : Phase → Option Nat
  | .received => none
  | .first => some 1
  | .counted n => some n
  | .refused n => some n
  | .reached n => n

def isReached : Phase → Bool
  | .reached _ => true
  | _ => false

/-- Whether the middleware is done with a request. -/
def isAnswered : Phase → Bool
  | .refused _ => true
  | .reached _ => true
  | _ => false

end Phase

/-- A request to a limited route. -/
structure LimitedRequest where
  ip : Address
  path : String
  phase : Phase
  deriving DecidableEq

/-- One minute of the limiter.  The clock counts the milliseconds since the minute began. -/
structure Limiter where
  clock : Nat
  counters : List Counter
  requests : List LimitedRequest
  deriving DecidableEq

inductive LimiterEvent where
  | tick (milliseconds : Nat)
  | receive (ip : Address) (path : String)
  | incr (i : Nat)
  | expire (i : Nat)
  | answer (i : Nat)
  deriving DecidableEq

namespace Limiter

/-- Another phase for a request. -/
def put (s : Limiter) (i : Nat) (request : LimitedRequest) (phase : Phase) : Limiter :=
  { s with requests := s.requests.set i { request with phase } }

section Next

variable (defaultRateLimitPerMinute : Int) (minute : String)

/-- The limit on requests with a path. -/
def limitOf (path : String) : Option Int :=
  (dispatch path).map (LimitedRoute.perMinute defaultRateLimitPerMinute)

/-- What an event does; `none` where it cannot happen. -/
def next (s : Limiter) : LimiterEvent → Option Limiter
  | .tick milliseconds =>
      if s.clock + milliseconds < 60000 then some { s with clock := s.clock + milliseconds }
      else none
  | .receive ip path => do
      let limit ← limitOf defaultRateLimitPerMinute path
      -- A limit that is not positive is no limit.
      let phase := if limit ≤ 0 then Phase.reached none else .received
      some { s with requests := s.requests ++ [{ ip, path, phase }] }
  | .incr i => do
      let request ← s.requests[i]?
      if request.phase = .received then
        let (counter, counters) :=
          Httpx.incr s.clock (rateKey request.ip request.path minute) s.counters
        let phase := if counter.count = 1 then .first else .counted counter.count
        some ({ s with counters }.put i request phase)
      else none
  | .expire i => do
      let request ← s.requests[i]?
      if request.phase = .first then
        let counters :=
          Httpx.expire s.clock (rateKey request.ip request.path minute) 60000 s.counters
        some ({ s with counters }.put i request (.counted 1))
      else none
  | .answer i => do
      let request ← s.requests[i]?
      let limit ← limitOf defaultRateLimitPerMinute request.path
      match request.phase with
      | .counted n =>
          some (s.put i request (if limit < n then .refused n else .reached (some n)))
      | _ => none

end Next

end Limiter

/-- The minute begins without a request and without a counter of the minute. -/
def startOfMinute (minute : String) (s : Limiter) : Prop :=
  s.clock = 0 ∧ s.requests = [] ∧
    ∀ ip path, Table.select Counter.key s.counters (rateKey ip path minute) = none

/-- One minute of the limiter. -/
abbrev limiterMachine (defaultRateLimitPerMinute : Int) (minute : String) :
    Machine Limiter LimiterEvent :=
  Machine.ofNext (startOfMinute minute) (Limiter.next defaultRateLimitPerMinute minute)

/-! ## What an event can do -/

/-- One step of the limiter. -/
inductive Limiter.Step (defaultRateLimitPerMinute : Int) (minute : String) (s : Limiter) :
    LimiterEvent → Limiter → Prop where
  | tick {milliseconds : Nat} : s.clock + milliseconds < 60000 →
      s.Step defaultRateLimitPerMinute minute (.tick milliseconds)
        { s with clock := s.clock + milliseconds }
  | receive {ip : Address} {path : String} {limit : Int} :
      limitOf defaultRateLimitPerMinute path = some limit →
      s.Step defaultRateLimitPerMinute minute (.receive ip path)
        { s with requests := s.requests ++
          [{ ip, path, phase := if limit ≤ 0 then .reached none else .received }] }
  | incr {i : Nat} {request : LimitedRequest} {counter : Counter} {counters : List Counter} :
      s.requests[i]? = some request → request.phase = .received →
      Httpx.incr s.clock (rateKey request.ip request.path minute) s.counters =
        (counter, counters) →
      s.Step defaultRateLimitPerMinute minute (.incr i) ({ s with counters }.put i request
        (if counter.count = 1 then .first else .counted counter.count))
  | expire {i : Nat} {request : LimitedRequest} {counters : List Counter} :
      s.requests[i]? = some request → request.phase = .first →
      Httpx.expire s.clock (rateKey request.ip request.path minute) 60000 s.counters = counters →
      s.Step defaultRateLimitPerMinute minute (.expire i)
        ({ s with counters }.put i request (.counted 1))
  | answer {i : Nat} {request : LimitedRequest} {limit : Int} {n : Nat} :
      s.requests[i]? = some request →
      limitOf defaultRateLimitPerMinute request.path = some limit → request.phase = .counted n →
      s.Step defaultRateLimitPerMinute minute (.answer i)
        (s.put i request (if limit < n then .refused n else .reached (some n)))

theorem Limiter.step_of_next {defaultRateLimitPerMinute : Int} {minute : String} {s s' : Limiter}
    {e : LimiterEvent} (h : s.next defaultRateLimitPerMinute minute e = some s') :
    s.Step defaultRateLimitPerMinute minute e s' := by
  cases e with
  | tick milliseconds =>
      simp only [next] at h
      split at h
      · cases h
        exact .tick ‹_›
      · cases h
  | receive ip path =>
      obtain ⟨limit, hlimit, hnext⟩ := Option.bind_eq_some_iff.mp h
      cases hnext
      exact .receive hlimit
  | incr i =>
      obtain ⟨request, hrequest, hnext⟩ := Option.bind_eq_some_iff.mp h
      split at hnext
      · cases hnext
        exact .incr hrequest ‹_› rfl
      · cases hnext
  | expire i =>
      obtain ⟨request, hrequest, hnext⟩ := Option.bind_eq_some_iff.mp h
      split at hnext
      · cases hnext
        exact .expire hrequest ‹_› rfl
      · cases hnext
  | answer i =>
      obtain ⟨request, hrequest, hnext⟩ := Option.bind_eq_some_iff.mp h
      obtain ⟨limit, hlimit, hphase⟩ := Option.bind_eq_some_iff.mp hnext
      split at hphase
      · cases hphase
        exact .answer hrequest hlimit ‹_›
      · cases hphase

/-! ## Keys -/

/-- Lists whose first slash starts the second part. -/
theorem append_eq_append_of_slash {a a' p p' : List Char} (ha : '/' ∉ a) (ha' : '/' ∉ a')
    (h : a ++ '/' :: p = a' ++ '/' :: p') : a = a' ∧ p = p' := by
  induction a generalizing a' with
  | nil =>
      cases a' with
      | nil => exact ⟨rfl, (List.cons.inj h).2⟩
      | cons c a' => exact absurd ((List.cons.inj h).1 ▸ List.mem_cons_self) ha'
  | cons c a ih =>
      cases a' with
      | nil => exact absurd ((List.cons.inj h).1 ▸ List.mem_cons_self) ha
      | cons c' a' =>
          obtain ⟨rfl, htail⟩ := List.cons.inj h
          obtain ⟨rfl, rfl⟩ := ih (fun hmem => ha (List.mem_cons_of_mem _ hmem))
            (fun hmem => ha' (List.mem_cons_of_mem _ hmem)) htail
          exact ⟨rfl, rfl⟩

theorem eq_slash_of_toLower {c : Char} (h : c.toLower = '/') : c = '/' := by
  unfold Char.toLower at h
  split at h
  · rename_i hupper
    have hval : c.val + ('a'.val - 'A'.val) = '/'.val := congrArg Char.val h
    have hnat := congrArg UInt32.toNat hval
    have hlow : 65 ≤ c.val.toNat := UInt32.le_iff_toNat_le.mp hupper.1
    have hhigh : c.val.toNat ≤ 90 := UInt32.le_iff_toNat_le.mp hupper.2
    have hshift : ('a'.val - 'A'.val).toNat = 32 := rfl
    have hslash : '/'.val.toNat = 47 := rfl
    rw [UInt32.toNat_add, hshift, hslash] at hnat
    omega
  · exact h

/-- A path that is dispatched begins with a slash. -/
theorem exists_of_dispatch {path : String} {route : LimitedRoute}
    (h : dispatch path = some route) : ∃ rest, path.toList = '/' :: rest := by
  have hfound := List.find?_some h
  have hpath : route.path = detectionPath path := of_decide_eq_true hfound
  have hslash : ∃ rest, route.path.toList = '/' :: rest := by
    cases route <;> exact ⟨_, rfl⟩
  obtain ⟨rest, hrest⟩ := hslash
  have hprefix : (detectionPath path).toList <+: path.toList.map Char.toLower := by
    unfold detectionPath
    rw [String.toList_ofList]
    split
    · exact List.rdropWhile_prefix _ _
    · exact List.prefix_rfl
  rw [← hpath, hrest] at hprefix
  obtain ⟨tail, htail⟩ := hprefix
  cases hchars : path.toList with
  | nil => rw [hchars] at htail; cases htail
  | cons c cs =>
      rw [hchars] at htail
      rw [eq_slash_of_toLower (List.cons.inj htail).1.symm]
      exact ⟨cs, rfl⟩

/-- A key tells the address and the path that it counts. -/
theorem rateKey_inj {ip ip' : Address} {path path' minute : String} {route route' : LimitedRoute}
    (hpath : dispatch path = some route) (hpath' : dispatch path' = some route')
    (h : rateKey ip path minute = rateKey ip' path' minute) : ip = ip' ∧ path = path' := by
  obtain ⟨rest, hrest⟩ := exists_of_dispatch hpath
  obtain ⟨rest', hrest'⟩ := exists_of_dispatch hpath'
  have hno : ∀ address : Address, '/' ∉ address.text.toList ++ ":POST:".toList := by
    intro address hmem
    rcases List.mem_append.mp hmem with htext | hmethod
    · exact address.no_slash htext
    · exact absurd hmethod (by decide)
  have hsplit : ∀ (address : Address) (text : String) (chars : List Char),
      text.toList = '/' :: chars → (rateKey address text minute).toList = "rate:".toList ++
        ((address.text.toList ++ ":POST:".toList) ++ '/' :: (chars ++ (":".toList ++
          minute.toList))) := by
    intro address text chars hchars
    simp only [rateKey, String.toList_append, hchars, List.append_assoc, List.cons_append]
    rfl
  have hkeys := congrArg String.toList h
  rw [hsplit ip path rest hrest, hsplit ip' path' rest' hrest'] at hkeys
  obtain ⟨haddress, hchars⟩ := append_eq_append_of_slash (hno ip) (hno ip')
    (List.append_cancel_left hkeys)
  have htext : ip.text = ip'.text := String.toList_inj.mp (List.append_cancel_right haddress)
  refine ⟨by cases ip; cases ip'; cases htext; rfl, String.toList_inj.mp ?_⟩
  rw [hrest, hrest', List.append_cancel_right hchars]

end Nuvonode.Httpx
