import Quiesce.Event
/-!
# The bus

Every event is published on the bus, where any number of receivers follow the stream, each at its
own pace. The bus keeps a window of the latest events; a receiver that falls out of the window is
told how many events it lost and goes on at the oldest one kept.

The type `Bus` is a `tokio::sync::broadcast` channel; this is that channel, with the whole stream
in place of the ring buffer. Receivers that sleep until something is published are left out.
-/

namespace Quiesce

/-- The stream of published events, and how much of its end is kept for slow receivers. -/
structure Bus where
  capacity : Nat
  stream : Array Event
deriving DecidableEq, Repr

/-- A place in the stream: the number of events already passed. -/
structure Receiver where
  position : Nat
deriving DecidableEq, Repr

inductive Receipt
  /-- Nothing new. -/
  | empty
  | event (e : Event)
  /-- This many events left the window unread. -/
  | lagged (count : Nat)
deriving DecidableEq, Repr

namespace Bus

/-- An empty bus. Its window is never empty, and tokio's `broadcast::channel` rounds it up to a
power of two. -/
def create (capacity : Nat) : Bus :=
  ⟨(max capacity 1).nextPowerOfTwo, #[]⟩

def publish (b : Bus) (e : Event) : Bus :=
  { b with stream := b.stream.push e }

def oldest (b : Bus) : Nat := b.stream.size - b.capacity

/-- A receiver of all events published from now on. -/
def subscribe (b : Bus) : Receiver := ⟨b.stream.size⟩

/-- The next item for a receiver, and the receiver past it (`try_recv`, which says `Lagged` once and
goes on at the oldest item kept). -/
def receive (b : Bus) (r : Receiver) : Receipt × Receiver :=
  if r.position < b.oldest then
    (.lagged (b.oldest - r.position), ⟨b.oldest⟩)
  else
    match b.stream[r.position]? with
    | some e => (.event e, ⟨r.position + 1⟩)
    | none => (.empty, r)

/-- Receives until nothing is left, or until `limit` items were given. -/
def drain (b : Bus) : Nat → Receiver → List Receipt × Receiver
  | 0, r => ([], r)
  | limit + 1, r =>
    match b.receive r with
    | (.empty, r) => ([], r)
    | (item, r) =>
      let (items, r) := b.drain limit r
      (item :: items, r)

/-- More items than a receiver can be given before the stream is exhausted. -/
def drainLimit (b : Bus) : Nat := b.stream.size + 1

theorem capacity_create_pos (capacity : Nat) : 0 < (create capacity).capacity :=
  Nat.pos_of_isPowerOfTwo (Nat.isPowerOfTwo_nextPowerOfTwo _)

theorem receive_subscribe (b : Bus) : b.receive b.subscribe = (.empty, b.subscribe) := by
  simp [receive, subscribe, oldest]

theorem receive_publish_subscribe (b : Bus) (e : Event) (h : 0 < b.capacity) :
    (b.publish e).receive b.subscribe = (.event e, ⟨b.stream.size + 1⟩) := by
  have : ¬ b.stream.size < b.stream.size + 1 - b.capacity := by omega
  simp [receive, publish, subscribe, oldest, this]

end Bus

end Quiesce
