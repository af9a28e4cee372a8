/-
  Contract/RequestLimit.lean --- how many requests of one address reach a limited route.

  Each spelling of a path has a counter of its own, so the requests that reach the
  handler are, for each spelling, the first ones up to the limit.  A limit therefore
  holds exactly for clients that keep to one spelling, or make few requests.
-/
import Nuvonode.Httpx.RateLimit

set_option autoImplicit false

namespace Nuvonode.Contract

open Nuvonode.Foundation Nuvonode.Httpx

/-! ## Requests of one address -/

/-- Whether a request is one of an address with a spelling of a path. -/
def spelled (ip : Address) (path : String) (request : LimitedRequest) : Bool :=
  request.ip = ip && request.path = path

/-- Whether a request is one of an address to a route. -/
def toRoute (ip : Address) (route : LimitedRoute) (request : LimitedRequest) : Bool :=
  request.ip = ip && dispatch request.path = some route

/-- What `INCR` answered to the requests with a spelling. -/
def numbers (ip : Address) (path : String) (requests : List LimitedRequest) : List Nat :=
  requests.filterMap fun request =>
    if spelled ip path request then request.phase.number else none

/-- The requests of an address that reached a route. -/
def reachedRoute (ip : Address) (route : LimitedRoute) (s : Limiter) : Nat :=
  s.requests.countP fun request => toRoute ip route request && request.phase.isReached

/-- Whether a client keeps to one spelling of a route. -/
def OneSpelling (ip : Address) (route : LimitedRoute) (s : Limiter) : Prop :=
  ∀ request ∈ s.requests, ∀ other ∈ s.requests, toRoute ip route request = true →
    toRoute ip route other = true → request.path = other.path

/-! ## What the limiter keeps -/

/-- What a phase says of a limit. -/
def Fits (limit : Int) : Phase → Prop
  | .refused n => limit < n
  | .reached none => limit ≤ 0
  | .reached (some n) => n ≤ limit
  | _ => True

/-- A counter has counted the given numbers, and outlasts the minute. -/
structure Counts (counter : Option Counter) (numbers : List Nat) : Prop where
  perm : numbers.Perm (List.range' 1 (counter.elim 0 Counter.count))
  lasts : ∀ live ∈ counter, live.Lasts 60000

structure Counting (defaultRateLimitPerMinute : Int) (minute : String) (s : Limiter) : Prop where
  clock : s.clock < 60000
  dispatched : ∀ request ∈ s.requests, (dispatch request.path).isSome
  fits : ∀ request ∈ s.requests, ∀ limit,
    Limiter.limitOf defaultRateLimitPerMinute request.path = some limit → Fits limit request.phase
  counts : ∀ ip path, (dispatch path).isSome →
    Counts (Table.select Counter.key s.counters (rateKey ip path minute))
      (numbers ip path s.requests)

section Numbers

variable {ip : Address} {path : String} {requests : List LimitedRequest}

theorem numbers_append {before after : List LimitedRequest} :
    numbers ip path (before ++ after) = numbers ip path before ++ numbers ip path after :=
  List.filterMap_append

theorem numbers_cons {request : LimitedRequest} : numbers ip path (request :: requests) =
    (if spelled ip path request then request.phase.number else none).toList ++
      numbers ip path requests := by
  unfold numbers
  rw [List.filterMap_cons]
  cases (if spelled ip path request then request.phase.number else none) <;> rfl

/-- A list around one of its elements. -/
theorem exists_split {α : Type} {l : List α} {i : Nat} {x : α} (h : l[i]? = some x) :
    ∃ before after, l = before ++ x :: after ∧ ∀ y, l.set i y = before ++ y :: after := by
  obtain ⟨hlt, rfl⟩ := List.getElem?_eq_some_iff.mp h
  refine ⟨l.take i, l.drop (i + 1), ?_, fun y => List.set_eq_take_append_cons_drop.trans ?_⟩
  · rw [List.getElem_cons_drop, List.take_append_drop]
  · rw [if_pos hlt]

/-- A request whose number does not change changes no numbers. -/
theorem numbers_set_of_same (ip : Address) (path : String) {i : Nat} {request : LimitedRequest}
    {phase : Phase} (h : requests[i]? = some request)
    (hphase : phase.number = request.phase.number) :
    numbers ip path (requests.set i { request with phase }) = numbers ip path requests := by
  obtain ⟨before, after, heq, hset⟩ := exists_split h
  have hspelled : spelled ip path { request with phase } = spelled ip path request := rfl
  rw [hset, heq, numbers_append, numbers_append, numbers_cons, numbers_cons, hspelled, hphase]

/-- A request that is counted adds its number to those of its spelling, and to no other. -/
theorem numbers_set_of_counted (ip : Address) (path : String) {i : Nat}
    {request : LimitedRequest} {phase : Phase} {n : Nat} (h : requests[i]? = some request)
    (hnone : request.phase.number = none) (hphase : phase.number = some n) :
    (numbers ip path (requests.set i { request with phase })).Perm
      (if spelled ip path request then n :: numbers ip path requests
      else numbers ip path requests) := by
  obtain ⟨before, after, heq, hset⟩ := exists_split h
  have hsame : spelled ip path { request with phase } = spelled ip path request := rfl
  rw [hset, heq, numbers_append, numbers_append, numbers_cons, numbers_cons, hsame, hnone, hphase]
  by_cases hspelled : spelled ip path request = true
  · simp only [if_pos hspelled]
    exact List.perm_middle
  · simp only [if_neg hspelled]
    exact .refl _

end Numbers

section Keeps

variable {defaultRateLimitPerMinute : Int} {minute : String} {s s' : Limiter} {e : LimiterEvent}

theorem counting_start (h : startOfMinute minute s) :
    Counting defaultRateLimitPerMinute minute s := by
  obtain ⟨hclock, hrequests, hcounters⟩ := h
  refine
    { clock := by rw [hclock]; decide
      dispatched := by simp [hrequests]
      fits := by simp [hrequests]
      counts := fun ip path _ => ?_ }
  rw [hcounters, hrequests]
  exact { perm := .refl _, lasts := by simp }

/-- What holds of every request holds after one of them has moved on. -/
theorem forall_put {P : LimitedRequest → Prop} {i : Nat} {request : LimitedRequest} {phase : Phase}
    (h : ∀ other ∈ s.requests, P other) (hnew : P { request with phase }) :
    ∀ other ∈ (s.put i request phase).requests, P other := by
  intro other hmem
  rcases List.mem_or_eq_of_mem_set hmem with hold | rfl
  · exact h other hold
  · exact hnew

/-- A phase that `INCR` gives is not an answer yet. -/
theorem fits_of_counted {limit : Int} {n : Nat} :
    Fits limit (if n = 1 then .first else .counted n) := by
  split <;> trivial

theorem elim_eq_of_map {α : Type} {f : α → Nat} {o o' : Option α} (h : o.map f = o'.map f) :
    o.elim 0 f = o'.elim 0 f := by
  have hget : ∀ x : Option α, x.elim 0 f = (x.map f).getD 0 := by
    intro x
    cases x <;> rfl
  rw [hget, hget, h]

/-- The counter of every key after an `INCR`: that of the request's key has one number more. -/
theorem counts_of_incr (hs : Counting defaultRateLimitPerMinute minute s) {i : Nat}
    {request : LimitedRequest} {counter : Counter} {counters : List Counter}
    (hrequest : s.requests[i]? = some request) (hphase : request.phase = .received)
    (hincr : incr s.clock (rateKey request.ip request.path minute) s.counters =
      (counter, counters)) {ip : Address} {path : String} (hpath : (dispatch path).isSome) :
    Counts (Table.select Counter.key counters (rateKey ip path minute))
      (numbers ip path (s.requests.set i { request with
        phase := if counter.count = 1 then .first else .counted counter.count })) := by
  have hdispatched := hs.dispatched request (List.mem_of_getElem? hrequest)
  have hkey := hs.counts request.ip request.path hdispatched
  have hother := hs.counts ip path hpath
  have hnumber : (if counter.count = 1 then Phase.first else .counted counter.count).number =
      some counter.count := by
    split
    · rename_i hone
      rw [hone]
      rfl
    · rfl
  have hperm := numbers_set_of_counted ip path hrequest (by rw [hphase]; rfl) hnumber
  have hspec := incr_of_lasts (rateKey ip path minute) hs.clock hkey.lasts
  rw [hincr] at hspec
  obtain ⟨hcount, hlasts, hselect⟩ := hspec
  by_cases hspelled : spelled ip path request = true
  · obtain ⟨rfl, rfl⟩ : request.ip = ip ∧ request.path = path := by
      simpa [spelled] using hspelled
    rw [if_pos rfl] at hselect
    rw [if_pos hspelled] at hperm
    refine { perm := hperm.trans ?_, lasts := fun live hlive => ?_ }
    · rw [hselect, Option.elim_some, hcount, List.range'_concat]
      refine (List.Perm.cons _ hkey.perm).trans ?_
      rw [one_mul, Nat.add_comm]
      exact (List.perm_append_singleton _ _).symm
    · have hsame : counter = live := Option.some.inj (hselect.symm.trans hlive)
      exact hsame ▸ hlasts
  · -- Another spelling has another key.
    have hne : rateKey request.ip request.path minute ≠ rateKey ip path minute := by
      intro heq
      obtain ⟨route, hroute⟩ := Option.isSome_iff_exists.mp hdispatched
      obtain ⟨route', hroute'⟩ := Option.isSome_iff_exists.mp hpath
      obtain ⟨hip, hsame⟩ := rateKey_inj hroute hroute' heq
      exact hspelled (by simp [spelled, hip, hsame])
    rw [if_neg hne] at hselect
    rw [if_neg hspelled] at hperm
    refine { perm := hperm.trans ?_, lasts := fun live hlive => ?_ }
    · rw [hselect]
      exact hother.perm
    · exact hother.lasts live (hselect ▸ hlive)

/-- The counter of every key after an `EXPIRE`, which changes no number. -/
theorem counts_of_expire (hs : Counting defaultRateLimitPerMinute minute s) {i : Nat}
    {request : LimitedRequest} {counters : List Counter}
    (hrequest : s.requests[i]? = some request) (hphase : request.phase = .first)
    (hexpire : expire s.clock (rateKey request.ip request.path minute) 60000 s.counters = counters)
    {ip : Address} {path : String} (hpath : (dispatch path).isSome) :
    Counts (Table.select Counter.key counters (rateKey ip path minute))
      (numbers ip path (s.requests.set i { request with phase := .counted 1 })) := by
  have hkey := hs.counts request.ip request.path
    (hs.dispatched request (List.mem_of_getElem? hrequest))
  have hother := hs.counts ip path hpath
  have hsame : numbers ip path (s.requests.set i { request with phase := .counted 1 }) =
      numbers ip path s.requests := numbers_set_of_same ip path hrequest (by rw [hphase]; rfl)
  have hspec := expire_of_lasts (rateKey ip path minute) hs.clock
    (Nat.le_add_left 60000 s.clock) hkey.lasts hother.lasts
  rw [hexpire] at hspec
  obtain ⟨hcount, hlasts⟩ := hspec
  refine { perm := ?_, lasts := hlasts }
  rw [hsame, elim_eq_of_map hcount]
  exact hother.perm

theorem counting_step (hs : Counting defaultRateLimitPerMinute minute s)
    (h : s.Step defaultRateLimitPerMinute minute e s') :
    Counting defaultRateLimitPerMinute minute s' := by
  cases h with
  | tick hclock => exact { hs with clock := hclock }
  | @receive ip path limit hlimit =>
      obtain ⟨route, hroute, -⟩ := Option.map_eq_some_iff.mp hlimit
      refine
        { clock := hs.clock
          dispatched := fun request hmem => ?_
          fits := fun request hmem other hother => ?_
          counts := fun ip' path' hpath' => ?_ }
      · rcases List.mem_append.mp hmem with hold | hnew
        · exact hs.dispatched request hold
        · rw [List.mem_singleton.mp hnew, hroute]
          rfl
      · rcases List.mem_append.mp hmem with hold | hnew
        · exact hs.fits request hold other hother
        · rw [List.mem_singleton.mp hnew] at hother ⊢
          have hsame : limit = other := Option.some.inj (hlimit.symm.trans hother)
          subst hsame
          by_cases hoff : limit ≤ 0
          · rw [if_pos hoff]
            exact hoff
          · rw [if_neg hoff]
            trivial
      · have hnone : (if limit ≤ 0 then Phase.reached none else .received).number = none := by
          split <;> rfl
        rw [numbers_append, numbers_cons, hnone, ite_self]
        simpa [numbers] using hs.counts ip' path' hpath'
  | incr hrequest hphase hincr =>
      have hdispatched := hs.dispatched _ (List.mem_of_getElem? hrequest)
      exact
        { clock := hs.clock
          dispatched := forall_put hs.dispatched hdispatched
          fits := forall_put hs.fits fun _ _ => fits_of_counted
          counts := fun _ _ => counts_of_incr hs hrequest hphase hincr }
  | expire hrequest hphase hexpire =>
      have hdispatched := hs.dispatched _ (List.mem_of_getElem? hrequest)
      exact
        { clock := hs.clock
          dispatched := forall_put hs.dispatched hdispatched
          fits := forall_put hs.fits fun _ _ => trivial
          counts := fun _ _ => counts_of_expire hs hrequest hphase hexpire }
  | @answer i request limit n hrequest hlimit hphase =>
      have hmem : request ∈ s.requests := List.mem_of_getElem? hrequest
      refine
        { clock := hs.clock
          dispatched := forall_put hs.dispatched (hs.dispatched request hmem)
          fits := forall_put hs.fits fun other hother => ?_
          counts := fun ip path hpath => ?_ }
      · have hsame : limit = other := Option.some.inj (hlimit.symm.trans hother)
        subst hsame
        by_cases hover : limit < n
        · rw [if_pos hover]
          exact hover
        · rw [if_neg hover]
          exact not_lt.mp hover
      · have hnumber : (if limit < n then Phase.refused n else .reached (some n)).number =
            request.phase.number := by
          rw [hphase]
          split <;> rfl
        have hsame := numbers_set_of_same ip path hrequest hnumber
        exact hsame ▸ hs.counts ip path hpath

theorem counting_of_reaches {es : List LimiterEvent}
    (h : (limiterMachine defaultRateLimitPerMinute minute).Reaches Machine.anyStep es s) :
    Counting defaultRateLimitPerMinute minute s :=
  h.invariant _ (fun _ => counting_start) fun _ _ _ hs hstep _ =>
    counting_step hs (Limiter.step_of_next hstep)

end Keeps

/-! ## How many reach the handler -/

/-- The requests of an address that reached the handler with a spelling. -/
def reachedSpelled (ip : Address) (path : String) (s : Limiter) : Nat :=
  s.requests.countP fun request => spelled ip path request && request.phase.isReached

/-- Of the numbers of a counter, the limit lets the first ones through. -/
theorem countP_range' (limit : Int) (n : Nat) :
    (List.range' 1 n).countP (fun i : Nat => (i : Int) ≤ limit) = min n limit.toNat := by
  induction n with
  | zero => simp
  | succ n ih =>
      rw [List.range'_concat, List.countP_append, ih, List.countP_singleton]
      split
      · rename_i hle
        have hle : ((1 + 1 * n : Nat) : Int) ≤ limit := of_decide_eq_true hle
        omega
      · rename_i hle
        have hle : ¬ ((1 + 1 * n : Nat) : Int) ≤ limit := fun h => hle (decide_eq_true h)
        omega

theorem countP_numbers {ip : Address} {path : String} {requests : List LimitedRequest}
    (p : Nat → Bool) : (numbers ip path requests).countP p =
      requests.countP fun request => spelled ip path request && request.phase.number.any p := by
  induction requests with
  | nil => rfl
  | cons request requests ih =>
      rw [numbers_cons, List.countP_append, ih, List.countP_cons, Nat.add_comm]
      congr 1
      cases spelled ip path request <;> cases request.phase.number <;> simp

/-- Two disjoint kinds of elements of one kind. -/
theorem countP_add_le {α : Type} {l : List α} {p q r : α → Bool}
    (hp : ∀ a, p a = true → r a = true) (hq : ∀ a, q a = true → r a = true)
    (hpq : ∀ a, p a = true → q a = false) : l.countP p + l.countP q ≤ l.countP r := by
  induction l with
  | nil => simp
  | cons a l ih =>
      simp only [List.countP_cons]
      have hp := hp a
      have hq := hq a
      have hpq := hpq a
      cases hpa : p a <;> cases hqa : q a <;> cases hra : r a <;> simp_all <;> omega

section Reached

variable {defaultRateLimitPerMinute : Int} {minute : String} {s : Limiter} {ip : Address}
  {path : String} {route : LimitedRoute}

theorem limitOf_of_dispatch (hroute : dispatch path = some route) :
    Limiter.limitOf defaultRateLimitPerMinute path =
      some (route.perMinute defaultRateLimitPerMinute) := by
  unfold Limiter.limitOf
  rw [hroute]
  rfl

/-- A request that reached the handler of a limited route has a number within the limit. -/
theorem exists_of_isReached (hs : Counting defaultRateLimitPerMinute minute s)
    (hlimit : 0 < route.perMinute defaultRateLimitPerMinute) {request : LimitedRequest}
    (hmem : request ∈ s.requests) (hroute : dispatch request.path = some route)
    (hreached : request.phase.isReached = true) :
    ∃ n, request.phase.number = some n ∧ (n : Int) ≤ route.perMinute defaultRateLimitPerMinute := by
  have hfits := hs.fits request hmem _ (limitOf_of_dispatch hroute)
  cases hphase : request.phase with
  | reached number =>
      rw [hphase] at hfits
      cases number with
      | none => exact absurd hlimit (not_lt.mpr hfits)
      | some n => exact ⟨n, rfl, hfits⟩
  | received => rw [hphase] at hreached; cases hreached
  | first => rw [hphase] at hreached; cases hreached
  | counted n => rw [hphase] at hreached; cases hreached
  | refused n => rw [hphase] at hreached; cases hreached

/-- With one spelling no more requests get through than the limit. -/
theorem reachedSpelled_le (hs : Counting defaultRateLimitPerMinute minute s)
    (hlimit : 0 < route.perMinute defaultRateLimitPerMinute)
    (hroute : dispatch path = some route) :
    (reachedSpelled ip path s : Int) ≤ route.perMinute defaultRateLimitPerMinute := by
  have hcounts := hs.counts ip path (by rw [hroute]; rfl)
  have hle : reachedSpelled ip path s ≤ (numbers ip path s.requests).countP
      fun i : Nat => (i : Int) ≤ route.perMinute defaultRateLimitPerMinute := by
    rw [countP_numbers]
    refine List.countP_mono_left fun request hmem hreached => ?_
    obtain ⟨hspelled, hreached⟩ := Bool.and_eq_true_iff.mp hreached
    have hpath : request.path = path := by
      simp only [spelled, Bool.and_eq_true, decide_eq_true_eq] at hspelled
      exact hspelled.2
    obtain ⟨n, hnumber, hn⟩ := exists_of_isReached hs hlimit hmem (hpath ▸ hroute) hreached
    simp [hspelled, hnumber, hn]
  rw [hcounts.perm.countP_eq, countP_range'] at hle
  omega

/-- Once its requests are answered, a spelling has let through as many as it could. -/
theorem reachedSpelled_eq (hs : Counting defaultRateLimitPerMinute minute s)
    (hlimit : 0 < route.perMinute defaultRateLimitPerMinute)
    (hroute : dispatch path = some route)
    (hanswered : ∀ request ∈ s.requests, spelled ip path request = true →
      request.phase.isAnswered = true) {n : Nat} (hn : n ∈ numbers ip path s.requests) :
    min n (route.perMinute defaultRateLimitPerMinute).toNat ≤ reachedSpelled ip path s := by
  have hcounts := hs.counts ip path (by rw [hroute]; rfl)
  have hle : (numbers ip path s.requests).countP
      (fun i : Nat => (i : Int) ≤ route.perMinute defaultRateLimitPerMinute) ≤
        reachedSpelled ip path s := by
    rw [countP_numbers]
    refine List.countP_mono_left fun request hmem hnumber => ?_
    obtain ⟨hspelled, hnumber⟩ := Bool.and_eq_true_iff.mp hnumber
    have hpath : request.path = path := by
      simp only [spelled, Bool.and_eq_true, decide_eq_true_eq] at hspelled
      exact hspelled.2
    have hfits := hs.fits request hmem _ (limitOf_of_dispatch (hpath ▸ hroute))
    have hdone := hanswered request hmem hspelled
    cases hphase : request.phase with
    | reached number =>
        rw [hspelled]
        rfl
    | refused i =>
        rw [hphase] at hfits hnumber
        exact absurd (of_decide_eq_true hnumber) (not_le.mpr hfits)
    | received => rw [hphase] at hdone; cases hdone
    | first => rw [hphase] at hdone; cases hdone
    | counted i => rw [hphase] at hdone; cases hdone
  rw [hcounts.perm.countP_eq, countP_range'] at hle
  have hrange := List.mem_range'_1.mp (hcounts.perm.mem_iff.mp hn)
  omega

/-- The requests of an address to a route. -/
def requestsOf (ip : Address) (route : LimitedRoute) (s : Limiter) : Nat :=
  s.requests.countP (toRoute ip route)

theorem toRoute_iff {request : LimitedRequest} : toRoute ip route request = true ↔
    request.ip = ip ∧ dispatch request.path = some route := by
  simp [toRoute]

theorem spelled_iff {request : LimitedRequest} : spelled ip path request = true ↔
    request.ip = ip ∧ request.path = path := by
  simp [spelled]

/-- One spelling, or few requests, is enough. -/
theorem reachedRoute_le (hs : Counting defaultRateLimitPerMinute minute s)
    (hlimit : 0 < route.perMinute defaultRateLimitPerMinute)
    (h : OneSpelling ip route s ∨
      (requestsOf ip route s : Int) ≤ route.perMinute defaultRateLimitPerMinute) :
    (reachedRoute ip route s : Int) ≤ route.perMinute defaultRateLimitPerMinute := by
  rcases h with hone | hfew
  · by_cases hsome : ∃ request ∈ s.requests, toRoute ip route request = true
    · obtain ⟨request, hmem, htoRoute⟩ := hsome
      have hroute := (toRoute_iff.mp htoRoute).2
      have hle : reachedRoute ip route s ≤ reachedSpelled ip request.path s := by
        refine List.countP_mono_left fun other hother hreached => ?_
        obtain ⟨hother', hreached⟩ := Bool.and_eq_true_iff.mp hreached
        have hpath := hone other hother request hmem hother' htoRoute
        exact Bool.and_eq_true_iff.mpr
          ⟨spelled_iff.mpr ⟨(toRoute_iff.mp hother').1, hpath⟩, hreached⟩
      have hspelling : (reachedSpelled ip request.path s : Int) ≤ _ :=
        reachedSpelled_le hs hlimit hroute
      omega
    · have hzero : reachedRoute ip route s = 0 := by
        refine List.countP_eq_zero.mpr fun request hmem hreached => hsome ⟨request, hmem, ?_⟩
        exact (Bool.and_eq_true_iff.mp hreached).1
      omega
  · have hle : reachedRoute ip route s ≤ requestsOf ip route s :=
      List.countP_mono_left fun request _ h => (Bool.and_eq_true_iff.mp h).1
    omega

/-- An answered request has a number, one of those of its spelling. -/
theorem exists_number_of_answered (hs : Counting defaultRateLimitPerMinute minute s)
    (hlimit : 0 < route.perMinute defaultRateLimitPerMinute) {request : LimitedRequest}
    (hmem : request ∈ s.requests) (htoRoute : toRoute ip route request = true)
    (hanswered : request.phase.isAnswered = true) :
    ∃ n, request.phase.number = some n ∧ n ∈ numbers ip request.path s.requests := by
  obtain ⟨hip, hroute⟩ := toRoute_iff.mp htoRoute
  have hsome : ∃ n, request.phase.number = some n := by
    cases hphase : request.phase with
    | reached number =>
        obtain ⟨n, hn, -⟩ := exists_of_isReached hs hlimit hmem hroute (by rw [hphase]; rfl)
        exact ⟨n, hphase ▸ hn⟩
    | refused n => exact ⟨n, rfl⟩
    | received => rw [hphase] at hanswered; cases hanswered
    | first => rw [hphase] at hanswered; cases hanswered
    | counted n => rw [hphase] at hanswered; cases hanswered
  obtain ⟨n, hn⟩ := hsome
  refine ⟨n, hn, List.mem_filterMap.mpr ⟨request, hmem, ?_⟩⟩
  rw [if_pos (spelled_iff.mpr ⟨hip, rfl⟩), hn]

/-- A refused request tells that its spelling has used up the limit. -/
theorem limit_lt_of_refused (hs : Counting defaultRateLimitPerMinute minute s)
    {request : LimitedRequest} {n : Nat} (hmem : request ∈ s.requests)
    (htoRoute : toRoute ip route request = true) (hanswered : request.phase.isAnswered = true)
    (hnot : request.phase.isReached ≠ true) (hn : request.phase.number = some n) :
    route.perMinute defaultRateLimitPerMinute < n := by
  have hfits := hs.fits request hmem _ (limitOf_of_dispatch (toRoute_iff.mp htoRoute).2)
  cases hphase : request.phase with
  | refused i =>
      rw [hphase] at hfits hn
      cases hn
      exact hfits
  | reached number => rw [hphase] at hnot; exact absurd rfl hnot
  | received => rw [hphase] at hanswered; cases hanswered
  | first => rw [hphase] at hanswered; cases hanswered
  | counted i => rw [hphase] at hanswered; cases hanswered

/-- What two spellings of a route let through reaches the route. -/
theorem reachedSpelled_add_le {path path' : String} (hroute : dispatch path = some route)
    (hroute' : dispatch path' = some route) (hne : path' ≠ path) :
    reachedSpelled ip path s + reachedSpelled ip path' s ≤ reachedRoute ip route s := by
  have hin : ∀ path, dispatch path = some route → ∀ a : LimitedRequest,
      (spelled ip path a && a.phase.isReached) = true →
        (toRoute ip route a && a.phase.isReached) = true := by
    intro path hpath a ha
    obtain ⟨hspelled, hreached⟩ := Bool.and_eq_true_iff.mp ha
    obtain ⟨haddress, rfl⟩ := spelled_iff.mp hspelled
    exact Bool.and_eq_true_iff.mpr ⟨toRoute_iff.mpr ⟨haddress, hpath⟩, hreached⟩
  refine countP_add_le (hin _ hroute) (hin _ hroute') fun a ha => ?_
  have hpath := (spelled_iff.mp (Bool.and_eq_true_iff.mp ha).1).2
  have hnot : spelled ip path' a = false :=
    Bool.eq_false_iff.mpr fun h => hne ((spelled_iff.mp h).2.symm.trans hpath)
  rw [hnot, Bool.false_and]

/-- Two spellings and more requests than the limit are too many. -/
theorem reachedRoute_gt (hs : Counting defaultRateLimitPerMinute minute s)
    (hlimit : 0 < route.perMinute defaultRateLimitPerMinute)
    (hanswered : ∀ request ∈ s.requests, toRoute ip route request = true →
      request.phase.isAnswered = true)
    (hspellings : ¬ OneSpelling ip route s)
    (hmany : route.perMinute defaultRateLimitPerMinute < requestsOf ip route s) :
    route.perMinute defaultRateLimitPerMinute < reachedRoute ip route s := by
  -- Every spelling has let through what the limit allows.
  have hspelling : ∀ request ∈ s.requests, toRoute ip route request = true →
      ∀ n ∈ numbers ip request.path s.requests,
        min n (route.perMinute defaultRateLimitPerMinute).toNat ≤
          reachedSpelled ip request.path s := by
    intro request hmem htoRoute n hn
    have hroute := (toRoute_iff.mp htoRoute).2
    refine reachedSpelled_eq hs hlimit hroute (fun other hother hspelled => ?_) hn
    obtain ⟨hip, hpath⟩ := spelled_iff.mp hspelled
    exact hanswered other hother (toRoute_iff.mpr ⟨hip, hpath ▸ hroute⟩)
  by_cases hall : ∀ request ∈ s.requests, toRoute ip route request = true →
      request.phase.isReached = true
  · have hle : requestsOf ip route s ≤ reachedRoute ip route s :=
      List.countP_mono_left fun request hmem h =>
        Bool.and_eq_true_iff.mpr ⟨h, hall request hmem h⟩
    omega
  · push Not at hall
    obtain ⟨request, hmem, htoRoute, hnot⟩ := hall
    have hdone := hanswered request hmem htoRoute
    obtain ⟨n, hn, hnmem⟩ := exists_number_of_answered hs hlimit hmem htoRoute hdone
    have hover := limit_lt_of_refused hs hmem htoRoute hdone hnot hn
    have hother : ∃ other ∈ s.requests, toRoute ip route other = true ∧
        other.path ≠ request.path := by
      by_contra hsame
      push Not at hsame
      exact hspellings fun a ha b hb hta htb => (hsame a ha hta).trans (hsame b hb htb).symm
    obtain ⟨other, hotherMem, hotherRoute, hne⟩ := hother
    obtain ⟨i, -, himem⟩ := exists_number_of_answered hs hlimit hotherMem hotherRoute
      (hanswered other hotherMem hotherRoute)
    have hfirst := hspelling request hmem htoRoute n hnmem
    have hsecond := hspelling other hotherMem hotherRoute i himem
    have hpos : 1 ≤ i := by
      have hcounts := hs.counts ip other.path (by rw [(toRoute_iff.mp hotherRoute).2]; rfl)
      exact (List.mem_range'_1.mp (hcounts.perm.mem_iff.mp himem)).1
    have hsum : reachedSpelled ip request.path s + reachedSpelled ip other.path s ≤
        reachedRoute ip route s :=
      reachedSpelled_add_le (toRoute_iff.mp htoRoute).2 (toRoute_iff.mp hotherRoute).2 hne
    omega

end Reached

/-- **When the request limit holds.**  In a minute of the limiter no more requests of an address
reach a limited route than its limit, when they keep to one spelling of the path or are no more
than the limit in all; and once they are answered, in no other case. -/
theorem request_limit_holds_iff {defaultRateLimitPerMinute : Int} {minute : String}
    {es : List LimiterEvent} {s : Limiter}
    (h : (limiterMachine defaultRateLimitPerMinute minute).Reaches Machine.anyStep es s)
    (ip : Address) {route : LimitedRoute}
    (hlimit : 0 < route.perMinute defaultRateLimitPerMinute) :
    ((OneSpelling ip route s ∨
        (requestsOf ip route s : Int) ≤ route.perMinute defaultRateLimitPerMinute) →
      (reachedRoute ip route s : Int) ≤ route.perMinute defaultRateLimitPerMinute) ∧
    ((∀ request ∈ s.requests, toRoute ip route request = true →
        request.phase.isAnswered = true) →
      ((reachedRoute ip route s : Int) ≤ route.perMinute defaultRateLimitPerMinute ↔
        OneSpelling ip route s ∨
          (requestsOf ip route s : Int) ≤ route.perMinute defaultRateLimitPerMinute)) := by
  have hs := counting_of_reaches h
  refine ⟨reachedRoute_le hs hlimit, fun hanswered => ⟨fun hle => ?_, reachedRoute_le hs hlimit⟩⟩
  by_contra hnot
  obtain ⟨hspellings, hmany⟩ := not_or.mp hnot
  have hgt := reachedRoute_gt hs hlimit hanswered hspellings (not_le.mp hmany)
  exact absurd hle (not_le.mpr hgt)

/-! ## A minute of registrations -/

def sampleAddress : Address := ⟨"203.0.113.7", by decide⟩

/-- A request from its arrival to its answer, the first of its spelling or not. -/
def limitedRequestEvents (i : Nat) (path : String) (first : Bool) : List LimiterEvent :=
  [.receive sampleAddress path, .incr i] ++ (if first then [.expire i] else []) ++ [.answer i]

def fiveRegistrations : List LimiterEvent :=
  limitedRequestEvents 0 "/api/auth/register" true ++
  limitedRequestEvents 1 "/api/auth/register" false ++
  limitedRequestEvents 2 "/api/auth/register" false ++
  limitedRequestEvents 3 "/api/auth/register" false ++
  limitedRequestEvents 4 "/api/auth/register" false

/-- Five registrations, and a sixth with a slash at the end. -/
def sixRegistrations : List LimiterEvent :=
  fiveRegistrations ++ limitedRequestEvents 5 "/API/auth/register/" true

/-- Six registrations with one spelling. -/
def sixSpelledAlike : List LimiterEvent :=
  fiveRegistrations ++ limitedRequestEvents 5 "/api/auth/register" false

def emptyLimiter : Limiter := { clock := 0, counters := [], requests := [] }

theorem start_emptyLimiter : startOfMinute "202501010000" emptyLimiter :=
  ⟨rfl, rfl, fun _ _ => rfl⟩

theorem sixth_registration_reaches :
    ¬ ∀ es s, (limiterMachine 30 "202501010000").Reaches Machine.anyStep es s →
      ∀ ip route, 0 < route.perMinute 30 →
        (reachedRoute ip route s : Int) ≤ route.perMinute 30 := by
  intro h
  have hrun : ∃ s, (limiterMachine 30 "202501010000").Reaches Machine.anyStep sixRegistrations s ∧
      reachedRoute sampleAddress .register s = 6 :=
    Machine.exists_of_exec start_emptyLimiter (by decide +kernel)
  obtain ⟨s, hs, hmany⟩ := hrun
  have hle := h sixRegistrations s hs sampleAddress .register (by decide)
  rw [hmany] at hle
  exact absurd hle (by decide)

/-- Of six registrations with one spelling the last is refused, so the limit of five holds. -/
theorem sample_registration_within_limit :
    ∃ s, (limiterMachine 30 "202501010000").Reaches Machine.anyStep sixSpelledAlike s ∧
      s.requests.map LimitedRequest.phase =
        [.reached (some 1), .reached (some 2), .reached (some 3), .reached (some 4),
          .reached (some 5), .refused 6] ∧
      requestsOf sampleAddress .register s = 6 ∧
      (reachedRoute sampleAddress .register s : Int) ≤ LimitedRoute.register.perMinute 30 := by
  have hrun : ∃ s, (limiterMachine 30 "202501010000").Reaches Machine.anyStep sixSpelledAlike s ∧
      s.requests.map LimitedRequest.phase =
        [.reached (some 1), .reached (some 2), .reached (some 3), .reached (some 4),
          .reached (some 5), .refused 6] ∧
      requestsOf sampleAddress .register s = 6 ∧
      ∀ request ∈ s.requests, request.path = "/api/auth/register" :=
    Machine.exists_of_exec start_emptyLimiter (by decide +kernel)
  obtain ⟨s, hs, hphases, hmany, hpaths⟩ := hrun
  have hspelling : OneSpelling sampleAddress .register s := fun request hrequest other hother _ _ =>
    (hpaths request hrequest).trans (hpaths other hother).symm
  exact ⟨s, hs, hphases, hmany,
    (request_limit_holds_iff hs sampleAddress (by decide)).1 (.inl hspelling)⟩

end Nuvonode.Contract
