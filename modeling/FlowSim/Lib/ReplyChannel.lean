import Mathlib

/-!
A client that asks one request at a time over a queue and gets all replies through
one bounded channel. It may stop waiting for a reply and go on to ask something
else. Each request and each reply carries the number of the asking it belongs to;
whether a reply is the client's own shows in these numbers.
-/
namespace FlowSim.Lib
set_option linter.unusedSimpArgs false

/-- What a server does with a request: no reply, a reply of some kind later, or a
    reply at once. -/
inductive Handling (K V : Type) where
  | nothing
  | later (kind : K)
  | now (value : V)
deriving DecidableEq

/-- What the client stands in, how often it has asked, its queued requests, which
    asking the next later reply of each kind is for, and the replies it has not
    taken. Requests that expect no reply, and replies to none, have no number. -/
structure Client (R K V : Type) where
  asking : Option R
  asked : Nat
  requests : List (R × Option Nat)
  expected : K → Option Nat
  replies : List (V × Option Nat)

namespace Client
variable {R K V : Type}

def idle : Client R K V := ⟨none,0,[],fun _ => none,[]⟩

/-- Queues a request without waiting for a reply. -/
def post (c : Client R K V) (request : R) : Client R K V :=
  { c with requests := c.requests ++ [(request,none)] }

/-- Queues a request and waits for its reply. -/
def ask (c : Client R K V) (request : R) : Client R K V :=
  { c with
    asking := some request
    asked := c.asked + 1
    requests := c.requests ++ [(request,some (c.asked + 1))] }

/-- Stops waiting. -/
def abandon (c : Client R K V) : Client R K V := { c with asking := none }

/-- Takes the oldest reply and goes on. -/
def take (c : Client R K V) : Client R K V := { c with asking := none, replies := c.replies.tail }

/-- A reply comes, unless the channel is full. -/
def reply (capacity : Nat) (c : Client R K V) (value : V) (number : Option Nat) : Client R K V :=
  if c.replies.length < capacity then { c with replies := c.replies ++ [(value,number)] } else c

theorem asking_reply (capacity : Nat) (c : Client R K V) (value : V) (number : Option Nat) :
    (c.reply capacity value number).asking = c.asking := by
  unfold reply
  split <;> rfl

theorem asked_reply (capacity : Nat) (c : Client R K V) (value : V) (number : Option Nat) :
    (c.reply capacity value number).asked = c.asked := by
  unfold reply
  split <;> rfl

/-- A later reply of the kind comes. -/
def deliver (capacity : Nat) (c : Client R K V) (kind : K) (value : V) : Client R K V :=
  c.reply capacity value (c.expected kind)

/-- A server takes the oldest request. -/
def handle [DecidableEq K] (outcome : R → Handling K V) (capacity : Nat) (c : Client R K V) : Client R K V :=
  match c.requests with
  | [] => c
  | (request,number) :: rest =>
    match outcome request with
    | .nothing => { c with requests := rest }
    | .later kind => { c with requests := rest, expected := Function.update c.expected kind number }
    | .now value => { c with requests := rest }.reply capacity value number

/-- The reply that the client takes next is one to the request it stands in. -/
def GetsOwn (answers : R → V → Prop) (c : Client R K V) : Prop :=
  ∀ request value number rest, c.asking = some request → c.replies = (value,number) :: rest →
    number = some c.asked ∧ answers request value

/-- What the numbers say: the request that the client stands in is the last in its
    queue, or it has been handled, and then a later reply is expected for it alone. -/
structure Numbered (outcome : R → Handling K V) (c : Client R K V) : Prop where
  requests_le : ∀ entry ∈ c.requests, ∀ n, entry.2 = some n → n ≤ c.asked
  expected_le : ∀ kind n, c.expected kind = some n → n ≤ c.asked
  replies_le : ∀ entry ∈ c.replies, ∀ n, entry.2 = some n → n ≤ c.asked
  queued : ∀ request, c.asking = some request → c.requests ≠ [] →
    (∃ before, c.requests = before ++ [(request,some c.asked)] ∧ ∀ entry ∈ before, entry.2 ≠ some c.asked) ∧
      ∀ kind, c.expected kind ≠ some c.asked
  handled : ∀ request, c.asking = some request → c.requests = [] →
    ∀ kind, c.expected kind = some c.asked ↔ outcome request = .later kind

/-! ### Moves of the client -/

section
variable {outcome : R → Handling K V} {answers : R → V → Prop} {capacity : Nat} {c : Client R K V}

theorem numbered_idle : Numbered outcome (idle : Client R K V) where
  requests_le _ member := absurd member List.not_mem_nil
  expected_le _ _ isSome := by cases isSome
  replies_le _ member := absurd member List.not_mem_nil
  queued _ asking := by cases asking
  handled _ asking := by cases asking

/-- A client that stands in no request gets nothing wrong. -/
theorem getsOwn_of_not_asking (quiet : c.asking = none) : GetsOwn answers c := by
  intro request value number rest asking
  cases quiet.symm.trans asking

theorem Numbered.post (numbered : Numbered outcome c) (quiet : c.asking = none) (request : R) :
    Numbered outcome (c.post request) where
  requests_le entry member n isNumber := by
    rcases List.mem_append.mp member with old | new
    · exact numbered.requests_le entry old n isNumber
    · rw [List.mem_singleton.mp new] at isNumber
      cases isNumber
  expected_le := numbered.expected_le
  replies_le := numbered.replies_le
  queued _ asking := by cases quiet.symm.trans asking
  handled _ asking := by cases quiet.symm.trans asking

theorem Numbered.ask (numbered : Numbered outcome c) (request : R) : Numbered outcome (c.ask request) where
  requests_le entry member n isNumber := by
    rcases List.mem_append.mp member with old | new
    · exact Nat.le_succ_of_le (numbered.requests_le entry old n isNumber)
    · rw [List.mem_singleton.mp new] at isNumber
      exact (Option.some.inj isNumber).ge
  expected_le kind n isNumber := Nat.le_succ_of_le (numbered.expected_le kind n isNumber)
  replies_le entry member n isNumber := Nat.le_succ_of_le (numbered.replies_le entry member n isNumber)
  queued other asking _ := by
    cases asking
    refine ⟨⟨c.requests,rfl,fun entry member isNumber => ?_⟩,fun kind isNumber => ?_⟩
    · exact absurd (numbered.requests_le entry member _ isNumber) (Nat.not_succ_le_self _)
    · exact absurd (numbered.expected_le kind _ isNumber) (Nat.not_succ_le_self _)
  handled _ _ empty := by simp [Client.ask] at empty

/-- A request is only safe to ask with an empty channel: what is in it is older. -/
theorem Numbered.getsOwn_ask (numbered : Numbered outcome c) (request : R) :
    GetsOwn answers (c.ask request) ↔ c.replies = [] := by
  constructor
  · intro own
    rcases replies : c.replies with _ | ⟨⟨value,number⟩,rest⟩
    · rfl
    · have isNumber := (own request value number rest rfl replies).1
      have old := numbered.replies_le (value,number) (by simp [replies]) _ isNumber
      exact absurd old (Nat.not_succ_le_self _)
  · intro empty request' value number rest _ replies
    have none : (c.ask request).replies = [] := empty
    cases none.symm.trans replies

theorem Numbered.abandon (numbered : Numbered outcome c) : Numbered outcome c.abandon where
  requests_le := numbered.requests_le
  expected_le := numbered.expected_le
  replies_le := numbered.replies_le
  queued _ asking := by cases asking
  handled _ asking := by cases asking

theorem Numbered.take (numbered : Numbered outcome c) : Numbered outcome c.take where
  requests_le := numbered.requests_le
  expected_le := numbered.expected_le
  replies_le entry member := numbered.replies_le entry (List.mem_of_mem_tail member)
  queued _ asking := by cases asking
  handled _ asking := by cases asking

/-! ### Replies -/

theorem Numbered.reply (numbered : Numbered outcome c) {number : Option Nat}
    (given : ∀ n, number = some n → n ≤ c.asked) (value : V) : Numbered outcome (c.reply capacity value number) := by
  unfold Client.reply
  split
  · refine ⟨numbered.requests_le,numbered.expected_le,fun entry member n isNumber => ?_,numbered.queued,numbered.handled⟩
    rcases List.mem_append.mp member with old | new
    · exact numbered.replies_le entry old n isNumber
    · rw [List.mem_singleton.mp new] at isNumber
      exact given n isNumber
  · exact numbered

/-- A reply matters when the channel was empty: then it is the one to be taken. -/
theorem getsOwn_reply (room : 0 < capacity) (own : GetsOwn answers c) {request : R} (asking : c.asking = some request)
    (value : V) (number : Option Nat) : GetsOwn answers (c.reply capacity value number) ↔
      (c.replies = [] → number = some c.asked ∧ answers request value) := by
  rcases replies : c.replies with _ | ⟨⟨first,firstNumber⟩,rest⟩
  · have replied : c.reply capacity value number = { c with replies := [(value,number)] } := by
      simp [Client.reply,replies,room]
    rw [replied]
    constructor
    · exact fun gets _ => gets request value number [] asking rfl
    · intro fits request' value' number' rest' asking' same
      cases asking.symm.trans asking'
      cases same
      exact fits rfl
  · refine iff_of_true ?_ (fun empty => by cases empty)
    intro request' value' number' rest' asking' same
    have first_same : ∃ rest'', (c.reply capacity value number).replies = (first,firstNumber) :: rest'' := by
      unfold Client.reply
      split
      · exact ⟨rest ++ [(value,number)],by simp [replies]⟩
      · exact ⟨rest,replies⟩
    obtain ⟨rest'',headed⟩ := first_same
    cases headed.symm.trans same
    rw [asking_reply] at asking'
    rw [asked_reply]
    exact own request' first firstNumber rest asking' replies

theorem Numbered.deliver (numbered : Numbered outcome c) (kind : K) (value : V) :
    Numbered outcome (c.deliver capacity kind value) :=
  numbered.reply (numbered.expected_le kind) value

/-- A later reply is the client's own when the request it stands in has been
    handled and expects one of the kind. -/
theorem Numbered.getsOwn_deliver (numbered : Numbered outcome c) (room : 0 < capacity) (own : GetsOwn answers c)
    {request : R} (asking : c.asking = some request) {kind : K} {value : V}
    (fits : outcome request = .later kind → answers request value) :
    GetsOwn answers (c.deliver capacity kind value) ↔
      (c.replies = [] → c.requests = [] ∧ outcome request = .later kind) := by
  unfold Client.deliver
  rw [getsOwn_reply room own asking]
  refine forall_congr' (fun _ => ?_)
  by_cases empty : c.requests = []
  · rw [numbered.handled request asking empty kind]
    exact ⟨fun both => ⟨empty,both.1⟩,fun both => ⟨both.2,fits both.2⟩⟩
  · have unexpected := (numbered.queued request asking empty).2 kind
    exact ⟨fun both => absurd both.1 unexpected,fun both => absurd both.1 empty⟩

/-! ### Requests that are handled -/

/-- Of the queue only the last request is the one the client stands in. -/
theorem Numbered.head_number (numbered : Numbered outcome c) {request : R} (asking : c.asking = some request)
    {first : R} {number : Option Nat} {rest : List (R × Option Nat)} (queue : c.requests = (first,number) :: rest) :
    if rest = [] then first = request ∧ number = some c.asked else number ≠ some c.asked ∧
      ∃ before, rest = before ++ [(request,some c.asked)] ∧ ∀ entry ∈ before, entry.2 ≠ some c.asked := by
  obtain ⟨⟨before,split_,older⟩,_⟩ := numbered.queued request asking (by simp [queue])
  rw [queue] at split_
  cases before with
  | nil =>
    cases split_
    simp
  | cons entry before =>
    rw [List.cons_append] at split_
    obtain ⟨rfl,rfl⟩ := List.cons.inj split_
    rw [if_neg (by simp)]
    exact ⟨older _ (List.mem_cons_self ..),before,rfl,fun entry member => older entry (List.mem_cons_of_mem _ member)⟩

/-- Taking a request from the queue, with what is expected afterwards. -/
theorem Numbered.pop (numbered : Numbered outcome c) {first : R} {number : Option Nat} {rest : List (R × Option Nat)}
    (queue : c.requests = (first,number) :: rest) {expected : K → Option Nat}
    (registered : ∀ kind, outcome first = .later kind → expected kind = number)
    (kept : ∀ kind, outcome first ≠ .later kind → expected kind = c.expected kind) :
    Numbered outcome { c with requests := rest, expected := expected } where
  requests_le entry member := numbered.requests_le entry (by rw [queue]; exact List.mem_cons_of_mem _ member)
  expected_le kind n isNumber := by
    have isNumber : expected kind = some n := isNumber
    by_cases later : outcome first = .later kind
    · rw [registered kind later] at isNumber
      exact numbered.requests_le (first,number) (by simp [queue]) n isNumber
    · rw [kept kind later] at isNumber
      exact numbered.expected_le kind n isNumber
  replies_le := numbered.replies_le
  queued request asking more := by
    have more : rest ≠ [] := more
    have head := numbered.head_number asking queue
    rw [if_neg more] at head
    refine ⟨head.2,fun kind => ?_⟩
    show expected kind ≠ some c.asked
    by_cases later : outcome first = .later kind
    · rw [registered kind later]
      exact head.1
    · rw [kept kind later]
      exact (numbered.queued request asking (by simp [queue])).2 kind
  handled request asking empty kind := by
    have empty : rest = [] := empty
    have head := numbered.head_number asking queue
    rw [if_pos empty] at head
    show expected kind = some c.asked ↔ _
    rw [← head.1]
    by_cases later : outcome first = .later kind
    · simp [registered kind later,later,head.2]
    · rw [kept kind later]
      exact iff_of_false ((numbered.queued request asking (by simp [queue])).2 kind) later

variable [DecidableEq K]

theorem Numbered.handle (numbered : Numbered outcome c) : Numbered outcome (c.handle outcome capacity) := by
  unfold Client.handle
  split
  · exact numbered
  · next first number rest queue =>
    have popped : ∀ {other : Handling K V}, outcome first = other → (∀ kind, other ≠ .later kind) →
        Numbered outcome { c with requests := rest } := by
      intro other same never
      exact numbered.pop queue (fun kind later => absurd (same.symm.trans later) (never kind)) (fun _ _ => rfl)
    split
    · next nothing => exact popped nothing (fun _ => by simp)
    · next kind later =>
      refine numbered.pop queue (fun other same => ?_) (fun other different => ?_)
      · cases later.symm.trans same
        exact Function.update_self ..
      · refine Function.update_of_ne ?_ ..
        rintro rfl
        exact different later
    · next value now =>
      exact (popped now (fun _ => by simp)).reply (numbered.requests_le (first,number) (by simp [queue])) value

/-- A reply at once is the client's own when its request is the last of the queue. -/
theorem Numbered.getsOwn_handle (numbered : Numbered outcome c) (room : 0 < capacity) (own : GetsOwn answers c)
    (fits : ∀ {request value}, outcome request = .now value → answers request value) :
    GetsOwn answers (c.handle outcome capacity) ↔ ∀ request, c.asking = some request →
      ∀ first number rest value, c.requests = (first,number) :: rest → outcome first = .now value →
        c.replies = [] → rest = [] := by
  rcases asks : c.asking with _ | request
  · refine iff_of_true (getsOwn_of_not_asking ?_) (fun _ asking => by cases asking)
    unfold Client.handle
    split
    · exact asks
    · split
      · exact asks
      · exact asks
      · rw [asking_reply]
        exact asks
  rcases queue : c.requests with _ | ⟨⟨first,number⟩,rest⟩
  · have unmoved : c.handle outcome capacity = c := by simp [Client.handle,queue]
    rw [unmoved]
    exact iff_of_true own (fun _ _ _ _ _ _ none => by cases none)
  · have kept : ∀ {expected : K → Option Nat}, GetsOwn answers { c with requests := rest, expected := expected } := own
    cases same : outcome first with
    | nothing =>
      have handled : c.handle outcome capacity = { c with requests := rest } := by simp [Client.handle,queue,same]
      rw [handled]
      refine iff_of_true kept ?_
      rintro _ _ _ _ _ _ ⟨⟩ now
      cases same.symm.trans now
    | later kind =>
      have handled : c.handle outcome capacity =
          { c with requests := rest, expected := Function.update c.expected kind number } := by
        simp [Client.handle,queue,same]
      rw [handled]
      refine iff_of_true kept ?_
      rintro _ _ _ _ _ _ ⟨⟩ now
      cases same.symm.trans now
    | now value =>
      have handled : c.handle outcome capacity = { c with requests := rest }.reply capacity value number := by
        simp [Client.handle,queue,same]
      rw [handled,getsOwn_reply room kept asks]
      have head := numbered.head_number asks queue
      constructor
      · rintro gets _ ⟨⟩ _ _ _ _ ⟨⟩ _ empty
        by_contra more
        rw [if_neg more] at head
        exact head.1 (gets empty).1
      · intro last empty
        rw [if_pos (last request rfl first number rest value rfl same empty)] at head
        exact ⟨head.2,head.1 ▸ fits same⟩

end
end Client
end FlowSim.Lib
