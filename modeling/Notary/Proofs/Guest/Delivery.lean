/-
How arguments come into a guest.

Every argument is put where the guest's own allocator says, one after the other, and between two of
them the allocator runs: it may give any word for an address, change bytes and take more pages. So
what is promised of one buffer is promised of the memory that its own allocator call left. That all
of them are still there when the function is entered depends on the allocator, and on nothing else.

* `Watched` — a guest with the exports that it was seen to enter; it answers like the guest.
* `Delivery`, `Delivery.Fills` — one argument on its way, and what it changes in memory.
* `Chained`, `exists_deliveries` — the deliveries of a list of arguments, one after the other.
* `Chained.untouched` — what is done to a buffer by deliveries that leave it alone: nothing.
* `Delivered`, `arguments_delivered` — all that is promised when the function is entered.
-/

import Notary.Proofs.Guest.Bounds
import Notary.Proofs.Guest.Growth

namespace Notary.Guest

variable {γ : Type} {x : Executor γ}

namespace Executor

/-- The name is that of an export which takes so many words and gives one, so it is entered. -/
def accepts (x : Executor γ) (g : γ) (name : String) (words : List UInt32) : Bool :=
  (x.signature? g name).any fun s => s.takesWords words.length

/-- Only an export that is entered gives a word. -/
theorem accepts_of_callWords {g g' : γ} {name : String} {words : List UInt32} {w : UInt32}
    (answered : x.callWords g name words = (.ok w, g')) : x.accepts g name words = true := by
  unfold callWords at answered
  unfold accepts
  split at answered
  · cases answered
  · rename_i s found
    rw [found]
    split at answered
    · rename_i fits
      exact fits
    · cases answered

/-- Whatever a call answers, the memory is still exported, and has all the pages that it had. -/
theorem Lawful.callWords (lawful : x.Lawful) (g : γ) (name : String) (words : List UInt32) :
    ((x.memory? g).isSome = true → (x.memory? (x.callWords g name words).2).isSome = true) ∧
      (x.memory g).size ≤ (x.memory (x.callWords g name words).2).size := by
  have exported := lawful.exported_invoke g name words
  have grown := lawful.size_invoke g name words
  unfold Executor.callWords
  split
  · exact ⟨id, Nat.le_refl _⟩
  · split
    · generalize x.invoke g name words = called at exported grown
      obtain ⟨answer, g'⟩ := called
      split <;> rename_i same <;> cases same <;> exact ⟨exported, grown⟩
    · exact ⟨id, Nat.le_refl _⟩

end Executor

/-! ### Guests that are watched -/

/-- An export that was entered: the words it got, its answer, and the guest before and after. -/
structure Entry (γ : Type) where
  name : String
  words : List UInt32
  before : γ
  answer : Except Fault UInt32
  after : γ

/-- A guest, and the exports that were entered so far. -/
structure Watched (γ : Type) where
  guest : γ
  entries : List (Entry γ) := []

namespace Watched

variable (x)

/-- A call is noted when it enters an export. -/
def callWords (w : Watched γ) (name : String) (words : List UInt32) :
    Except Fault UInt32 × Watched γ :=
  let called := x.callWords w.guest name words
  let entry : Entry γ := ⟨name, words, w.guest, called.1, called.2⟩
  (called.1, ⟨called.2, w.entries ++ if x.accepts w.guest name words then [entry] else []⟩)

def writeBuffer (w : Watched γ) (data : Bytes) : Except Fault UInt32 × Watched γ :=
  if maxBufferSize < data.length + lengthWidth then (.error (.bufferTooLarge data.length), w)
  else
    match w.callWords x allocatorName [UInt32.ofNat (data.length + lengthWidth)] with
    | (.error e, w) => (.error e, w)
    | (.ok address, w) =>
      let put := x.putBuffer w.guest address data
      (put.1, { w with guest := put.2 })

def writeAll : List Bytes → Watched γ → Except Fault (List UInt32) × Watched γ
  | [], w => (.ok [], w)
  | data :: rest, w =>
    match w.writeBuffer x data with
    | (.error e, w) => (.error e, w)
    | (.ok address, w) =>
      match writeAll rest w with
      | (.error e, w) => (.error e, w)
      | (.ok addresses, w) => (.ok (address :: addresses), w)

def call (w : Watched γ) (name : String) (args : List Bytes) : Except Fault Bytes × Watched γ :=
  match writeAll x args w with
  | (.error e, w) => (.error e, w)
  | (.ok addresses, w) =>
    match w.callWords x name addresses with
    | (.error e, w) => (.error e, w)
    | (.ok address, w) => (x.readBuffer w.guest address, w)

/-- An answer without the notes. -/
def plain {α : Type} (answer : α × Watched γ) : α × γ := (answer.1, answer.2.guest)

theorem plain_writeBuffer (w : Watched γ) (data : Bytes) :
    plain (w.writeBuffer x data) = x.writeBuffer w.guest data := by
  unfold writeBuffer Executor.writeBuffer callWords
  split
  · rfl
  · rcases x.callWords w.guest allocatorName _ with ⟨answer, g⟩
    cases answer <;> rfl

theorem plain_writeAll (args : List Bytes) (w : Watched γ) :
    plain (writeAll x args w) = x.writeAll args w.guest := by
  induction args generalizing w with
  | nil => rfl
  | cons data rest ih =>
    have here := plain_writeBuffer x w data
    unfold writeAll Executor.writeAll
    rw [← here]
    rcases w.writeBuffer x data with ⟨answer, w'⟩
    cases answer with
    | error e => rfl
    | ok address =>
      have later := ih w'
      dsimp only [plain]
      rw [← later]
      rcases writeAll x rest w' with ⟨answer, w''⟩
      cases answer <;> rfl

/-- Watching a guest changes neither its answers nor itself. -/
theorem plain_call (w : Watched γ) (name : String) (args : List Bytes) :
    plain (w.call x name args) = x.call w.guest name args := by
  unfold call Executor.call
  rw [← plain_writeAll]
  rcases writeAll x args w with ⟨answer, w'⟩
  cases answer with
  | error e => rfl
  | ok addresses =>
    dsimp only [plain, callWords]
    rcases x.callWords w'.guest name addresses with ⟨answer, g⟩
    cases answer <;> rfl

/-- What is larger than all that the allocator can be asked for is refused before it is asked. -/
theorem writeBuffer_of_large (w : Watched γ) {data : Bytes} (large : 2 ^ 31 - 5 < data.length) :
    w.writeBuffer x data = (.error (.bufferTooLarge data.length), w) := by
  unfold writeBuffer
  rw [if_pos]
  unfold maxBufferSize lengthWidth
  omega

end Watched

/-! ### One argument -/

/-- An argument on its way: the address that the allocator gave for it, and the guest when the
allocator was asked, when it had answered, and when the buffer was put. -/
structure Delivery (γ : Type) where
  data : Bytes
  address : UInt32
  asked : γ
  given : γ
  filled : γ

namespace Delivery

/-- The address is one of those that the buffer takes. -/
def Covers (d : Delivery γ) (a : Nat) : Prop :=
  d.address.toNat ≤ a ∧ a < d.address.toNat + 4 + d.data.length

/-- The call of the allocator. -/
def entry (d : Delivery γ) : Entry γ :=
  ⟨allocatorName, [UInt32.ofNat (d.data.length + 4)], d.asked, .ok d.address, d.given⟩

/-- The memory holds the buffer. -/
structure HeldBy (d : Delivery γ) (m : Memory) : Prop where
  fits : d.address.toNat + 4 + d.data.length ≤ m.size
  length : m.lengthAt d.address.toNat = d.data.length
  bytes : ∀ i (inside : i < d.data.length), m.cell (d.address.toNat + 4 + i) = d.data[i]

/-- The buffer is in the memory that the allocator left, which is otherwise as it was. -/
structure Fills (x : Executor γ) (d : Delivery γ) : Prop where
  answered : x.callWords d.asked allocatorName [UInt32.ofNat (d.data.length + 4)] =
    (.ok d.address, d.given)
  /-- The number that the allocator was asked for has no sign. -/
  positive : (UInt32.ofNat (d.data.length + 4)).toInt32.toInt = d.data.length + 4
  /-- Nothing is done to the guest but that its memory is put, which has the size that it had and
  other bytes only at addresses that the buffer takes. -/
  frame : d.filled = x.putMemory d.given (x.memory d.filled)
  size : (x.memory d.filled).size = (x.memory d.given).size
  outside : ∀ a, ¬ d.Covers a → (x.memory d.filled).cell a = (x.memory d.given).cell a
  exported : x.memory? d.filled = some (x.memory d.filled)
  held : d.HeldBy (x.memory d.filled)
  readBack : x.readBuffer d.filled d.address = .ok d.data

end Delivery

theorem Memory.cell_put (m : Memory) (offset : Nat) (bs : Bytes) (a : Nat) :
    (m.put offset bs).cell a = if offset ≤ a then bs.getD (a - offset) (m.cell a) else m.cell a :=
  getD_putAll bs offset a m.cells

/-- A buffer that was put into a memory is held by it. -/
theorem Delivery.heldBy_put {d : Delivery γ} {m : Memory} (short : d.data.length < 2 ^ 32)
    (fits : d.address.toNat + 4 + d.data.length ≤ m.size) :
    d.HeldBy (m.put d.address.toNat (buffer d.data)) := by
  have size : (buffer d.data).length = 4 + d.data.length := by simp [buffer, lengthWidth]
  refine ⟨fits, ?_, ?_⟩
  · have told : (m.put d.address.toNat (buffer d.data)).read? d.address.toNat lengthWidth =
        some (Bytes.le lengthWidth d.data.length) := by
      rw [Memory.read?_put (Nat.le_refl _) (by rw [size, lengthWidth]; omega) (by rw [size]; omega)]
      simp [buffer]
    rw [Memory.read?_of_le (by rw [Memory.size_put, lengthWidth]; omega), Option.some.injEq] at told
    rw [← Memory.leValue_stretch, told, Bytes.leValue_le short]
  · intro i inside
    have place : d.address.toNat + 4 + i - d.address.toNat = 4 + i := by omega
    rw [Memory.cell_put, if_pos (by omega), place, buffer]
    simp [lengthWidth, inside]

namespace Executor

theorem memory_eq {g : γ} {m : Memory} (exported : x.memory? g = some m) : x.memory g = m := by
  rw [memory, exported]
  rfl

theorem memory?_of_isSome {g : γ} (exported : (x.memory? g).isSome = true) :
    x.memory? g = some (x.memory g) := by
  obtain ⟨m, here⟩ := Option.isSome_iff_exists.mp exported
  rw [memory_eq here, here]

/-- A buffer that the memory holds is read as what it holds. -/
theorem readBuffer_of_held {g : γ} {m : Memory} (exported : x.memory? g = some m)
    {d : Delivery γ} (held : d.HeldBy m) : x.readBuffer g d.address = .ok d.data := by
  have fits := held.fits
  rw [readBuffer_eq exported, held.length, lengthWidth, if_neg (by omega), if_neg (by omega)]
  congr 1
  refine (Memory.eq_stretch_iff.mpr ⟨rfl, ?_⟩).symm
  intro i inside
  rw [held.bytes i inside, List.getElem?_eq_getElem inside]

/-- A buffer is only put where all of it fits. -/
theorem putBuffer_eq_ok {g g' : γ} {address p : UInt32} {data : Bytes}
    (put : x.putBuffer g address data = (.ok p, g')) :
    ∃ m, x.memory? g = some m ∧ p = address ∧
      address.toNat + lengthWidth + data.length ≤ m.size ∧
      g' = x.putMemory g (m.put address.toNat (buffer data)) := by
  cases exported : x.memory? g with
  | none =>
    rw [putBuffer, getMemory, exported] at put
    cases put
  | some m =>
    have answer := congrArg Prod.fst put
    rw [putBuffer_fst exported] at answer
    have fits : address.toNat + lengthWidth + data.length ≤ m.size := by
      split at answer
      · cases answer
      · split at answer
        · cases answer
        · omega
    rw [putBuffer_of_fits exported fits] at put
    cases put
    exact ⟨m, rfl, rfl, fits, rfl⟩

end Executor

/-- Below 2³¹, a word with a sign is the number that it was made of. -/
theorem toInt_ofNat_of_lt {n : Nat} (small : n < 2 ^ 31) :
    (UInt32.ofNat n).toInt32.toInt = n := by
  have word : (UInt32.ofNat n).toInt32.toInt = ((UInt32.ofNat n).toNat : Int).bmod (2 ^ 32) :=
    BitVec.toInt_eq_toNat_bmod _
  rw [word, UInt32.toNat_ofNat', Nat.mod_eq_of_lt (by omega)]
  simp only [Int.bmod]
  omega

/-- What the allocator gave is filled when the buffer is put there. -/
theorem Delivery.fills_of_put (lawful : x.Lawful) {d : Delivery γ}
    (short : d.data.length + 4 ≤ 2 ^ 31 - 1)
    (answered : x.callWords d.asked allocatorName [UInt32.ofNat (d.data.length + 4)] =
      (.ok d.address, d.given))
    (put : x.putBuffer d.given d.address d.data = (.ok d.address, d.filled)) : d.Fills x := by
  obtain ⟨m, exported, -, fits, filled⟩ := Executor.putBuffer_eq_ok put
  have given : x.memory d.given = m := Executor.memory_eq exported
  have kept : x.memory? d.filled = some (m.put d.address.toNat (buffer d.data)) := by
    rw [filled]
    exact lawful.memory?_put _ _ (by rw [exported]; rfl) (by rw [given]; rfl) (by rw [given]; rfl)
  have memory : x.memory d.filled = m.put d.address.toNat (buffer d.data) :=
    Executor.memory_eq kept
  have held : d.HeldBy (x.memory d.filled) := by
    rw [memory]
    exact heldBy_put (by omega) fits
  refine
    { answered
      positive := toInt_ofNat_of_lt (by omega)
      frame := by rw [memory, filled]
      size := by rw [memory, given, Memory.size_put]
      outside := ?_
      exported := memory ▸ kept
      held
      readBack := Executor.readBuffer_of_held (memory ▸ kept) held }
  intro a away
  rw [memory, given, Memory.cell_put]
  split
  · rename_i low
    have behind : (buffer d.data).length ≤ a - d.address.toNat := by
      simp only [buffer, List.length_append, Bytes.length_le, lengthWidth]
      unfold Covers at away
      omega
    rw [List.getD_eq_getElem?_getD, List.getElem?_eq_none behind, Option.getD_none]
  · rfl

/-- An argument that was written was delivered: the allocator was entered once, and its buffer was
put where it said. -/
theorem exists_delivery (lawful : x.Lawful) {w w' : Watched γ} {data : Bytes} {address : UInt32}
    (written : w.writeBuffer x data = (.ok address, w')) :
    ∃ d : Delivery γ, d.data = data ∧ d.address = address ∧ d.asked = w.guest ∧
      d.filled = w'.guest ∧ w'.entries = w.entries ++ [d.entry] ∧ d.Fills x := by
  unfold Watched.writeBuffer at written
  split at written
  · cases written
  · rename_i small
    cases called : x.callWords w.guest allocatorName
        [UInt32.ofNat (data.length + lengthWidth)] with
    | mk answer given =>
      cases answer with
      | error e =>
        simp only [Watched.callWords, called] at written
        cases written
      | ok p =>
        have entered := Executor.accepts_of_callWords called
        simp only [Watched.callWords, called, entered, if_true] at written
        cases put : x.putBuffer given p data with
        | mk answer filled =>
          rw [put, Prod.mk.injEq] at written
          obtain ⟨rfl, rfl⟩ := written
          obtain ⟨-, -, rfl, -, -⟩ := Executor.putBuffer_eq_ok put
          have short : data.length + 4 ≤ 2 ^ 31 - 1 := Nat.not_lt.mp small
          exact ⟨⟨data, address, w.guest, given, filled⟩, rfl, rfl, rfl, rfl, rfl,
            Delivery.fills_of_put lawful short called put⟩

/-! ### All arguments -/

/-- Each delivery begins on what the last one left. -/
def Chained : γ → List (Delivery γ) → γ → Prop
  | g, [], here => here = g
  | g, d :: ds, here => d.asked = g ∧ Chained d.filled ds here

/-- Arguments that were written were delivered one after the other. -/
theorem exists_deliveries (lawful : x.Lawful) {args : List Bytes} {w w' : Watched γ}
    {addresses : List UInt32} (written : Watched.writeAll x args w = (.ok addresses, w')) :
    ∃ ds : List (Delivery γ), ds.map (·.data) = args ∧ ds.map (·.address) = addresses ∧
      Chained w.guest ds w'.guest ∧ w'.entries = w.entries ++ ds.map (·.entry) ∧
      ∀ d ∈ ds, d.Fills x := by
  induction args generalizing w addresses with
  | nil =>
    cases written
    exact ⟨[], rfl, rfl, rfl, by simp, by simp⟩
  | cons data rest ih =>
    unfold Watched.writeAll at written
    cases first : w.writeBuffer x data with
    | mk answer between =>
      cases answer with
      | error e =>
        rw [first] at written
        cases written
      | ok address =>
        cases later : Watched.writeAll x rest between with
        | mk answer last =>
          cases answer with
          | error e =>
            simp only [first, later] at written
            cases written
          | ok others =>
            simp only [first, later] at written
            cases written
            obtain ⟨d, rfl, rfl, asked, filled, entry, fills⟩ := exists_delivery lawful first
            obtain ⟨ds, rfl, rfl, chained, entries, all⟩ := ih later
            refine ⟨d :: ds, rfl, rfl, ⟨asked, filled ▸ chained⟩, ?_, ?_⟩
            · rw [entries, entry]
              simp
            · simpa using ⟨fills, all⟩

/-! ### Buffers that are left alone -/

namespace Delivery

/-- No address is taken by both buffers. -/
def Apart (d later : Delivery γ) : Prop := ∀ a, d.Covers a → ¬ later.Covers a

/-- When the allocator gives the later buffer, it leaves the bytes of the earlier one. -/
def Spares (x : Executor γ) (d later : Delivery γ) : Prop :=
  ∀ a, d.Covers a → (x.memory later.given).cell a = (x.memory later.asked).cell a

/-- From one guest to a later one nothing was done to the buffer. -/
structure Untouched (x : Executor γ) (d : Delivery γ) (g g' : γ) : Prop where
  exported : (x.memory? g).isSome = true → (x.memory? g').isSome = true
  size : (x.memory g).size ≤ (x.memory g').size
  cells : ∀ a, d.Covers a → (x.memory g').cell a = (x.memory g).cell a

theorem Untouched.trans {d : Delivery γ} {g₁ g₂ g₃ : γ} (first : d.Untouched x g₁ g₂)
    (second : d.Untouched x g₂ g₃) : d.Untouched x g₁ g₃ where
  exported := second.exported ∘ first.exported
  size := Nat.le_trans first.size second.size
  cells a inside := (second.cells a inside).trans (first.cells a inside)

/-- A later delivery does nothing to a buffer that its allocator call spares and that it is apart
from. -/
theorem Fills.untouched (lawful : x.Lawful) {d later : Delivery γ} (fills : later.Fills x)
    (apart : d.Apart later) (spares : d.Spares x later) :
    d.Untouched x later.asked later.filled := by
  have grown :=
    (lawful.callWords later.asked allocatorName [UInt32.ofNat (later.data.length + 4)]).2
  rw [fills.answered] at grown
  refine ⟨fun _ => by rw [fills.exported]; rfl, ?_, ?_⟩
  · rw [fills.size]
    exact grown
  · intro a inside
    rw [fills.outside a (apart a inside), spares a inside]

/-- A buffer that nothing was done to is still held. -/
theorem HeldBy.of_untouched {d : Delivery γ} {g g' : γ} (held : d.HeldBy (x.memory g))
    (untouched : d.Untouched x g g') : d.HeldBy (x.memory g') := by
  have cell : ∀ i < 4 + d.data.length, (x.memory g').cell (d.address.toNat + i) =
      (x.memory g).cell (d.address.toNat + i) :=
    fun i inside => untouched.cells _ ⟨by omega, by omega⟩
  refine ⟨Nat.le_trans held.fits untouched.size, ?_, ?_⟩
  · rw [← held.length]
    unfold Memory.lengthAt
    have first := cell 0 (by omega)
    rw [Nat.add_zero] at first
    rw [first, cell 1 (by omega), cell 2 (by omega), cell 3 (by omega)]
  · intro i inside
    rw [← held.bytes i inside, Nat.add_assoc, cell (4 + i) (by omega)]

end Delivery

/-- Deliveries that all spare a buffer and are apart from it do nothing to it. -/
theorem Chained.untouched (lawful : x.Lawful) {d : Delivery γ} {ds : List (Delivery γ)}
    {g here : γ} (chained : Chained g ds here) (fills : ∀ later ∈ ds, later.Fills x)
    (apart : ∀ later ∈ ds, d.Apart later) (spared : ∀ later ∈ ds, d.Spares x later) :
    d.Untouched x g here := by
  induction ds generalizing g with
  | nil =>
    cases chained
    exact ⟨id, Nat.le_refl _, fun _ _ => rfl⟩
  | cons later ds ih =>
    obtain ⟨rfl, rest⟩ := chained
    rw [List.forall_mem_cons] at fills apart spared
    exact (fills.1.untouched lawful apart.1 spared.1).trans (ih rest fills.2 apart.2 spared.2)

/-- When the buffers are apart and each is spared while the later ones are given, all of them can be
read in the end. -/
theorem Chained.readBuffer_eq (lawful : x.Lawful) {ds : List (Delivery γ)} {g here : γ}
    (chained : Chained g ds here) (fills : ∀ d ∈ ds, d.Fills x)
    (apart : ds.Pairwise Delivery.Apart) (spared : ds.Pairwise (Delivery.Spares x)) :
    ∀ d ∈ ds, x.readBuffer here d.address = .ok d.data := by
  induction ds generalizing g with
  | nil => simp
  | cons d ds ih =>
    obtain ⟨rfl, rest⟩ := chained
    rw [List.forall_mem_cons] at fills ⊢
    rw [List.pairwise_cons] at apart spared
    have untouched := rest.untouched lawful fills.2 apart.1 spared.1
    have exported : x.memory? here = some (x.memory here) :=
      Executor.memory?_of_isSome (untouched.exported (by rw [fills.1.exported]; rfl))
    exact ⟨Executor.readBuffer_of_held exported (fills.1.held.of_untouched untouched),
      ih rest fills.2 apart.2 spared.2⟩

/-- What is promised when a function is entered with the addresses of its arguments. -/
structure Delivered (x : Executor γ) (g : γ) (name : String) (args : List Bytes)
    (addresses : List UInt32) (here : γ) (ds : List (Delivery γ)) : Prop where
  data_eq : ds.map (·.data) = args
  address_eq : ds.map (·.address) = addresses
  chained : Chained g ds here
  /-- The allocator was entered once for each argument, in order, then the function, and no other
  export. -/
  entries : (Watched.call x ⟨g, []⟩ name args).2.entries =
    ds.map (·.entry) ++
      [⟨name, addresses, here, (x.callWords here name addresses).1,
        (x.callWords here name addresses).2⟩]
  fills : ∀ d ∈ ds, d.Fills x
  /-- Every argument is where its address says, when the allocator kept the buffers apart. -/
  intact : ds.Pairwise Delivery.Apart → ds.Pairwise (Delivery.Spares x) →
    addresses.map (x.readBuffer here) = args.map .ok

/-- Whatever runs the guest, a function that is entered has been given its arguments, and what is
too large to be asked for is refused before the allocator is entered. -/
theorem arguments_delivered (lawful : x.Lawful) {g here : γ} {name : String} {args : List Bytes}
    {addresses : List UInt32} (written : x.writeAll args g = (.ok addresses, here))
    (accepted : x.accepts here name addresses = true) :
    (∃ ds, Delivered x g name args addresses here ds) ∧
      (∀ w : Watched γ, Watched.plain (w.call x name args) = x.call w.guest name args) ∧
      ∀ (w : Watched γ) (data : Bytes), 2 ^ 31 - 5 < data.length →
        w.writeBuffer x data = (.error (.bufferTooLarge data.length), w) := by
  refine ⟨?_, fun w => w.plain_call x name args,
    fun w data large => w.writeBuffer_of_large x large⟩
  have watched := Watched.plain_writeAll x args ⟨g, []⟩
  rw [written] at watched
  cases told : Watched.writeAll x args ⟨g, []⟩ with
  | mk answer w =>
    rw [told, Watched.plain, Prod.mk.injEq] at watched
    obtain ⟨rfl, rfl⟩ := watched
    obtain ⟨ds, data, same, chained, entries, fills⟩ := exists_deliveries lawful told
    refine ⟨ds, data, same, chained, ?_, fills, ?_⟩
    · unfold Watched.call
      simp only [told, Watched.callWords, accepted, if_true]
      rw [entries]
      cases (x.callWords w.guest name addresses).1 <;> rfl
    · intro apart spared
      have readBack := chained.readBuffer_eq lawful fills apart spared
      rw [← data, ← same, List.map_map, List.map_map]
      exact List.map_congr_left readBack

namespace Bump

/-- An allocator that gives out one stretch of memory after the other. -/
def allocator : Function :=
  ⟨⟨[.i32], [.i32]⟩, [], [.globalGet 0, .globalGet 0, .localGet 0, .binary .add, .globalSet 0]⟩

/-- A function of two buffers that gives the second one. -/
def second : Function := ⟨⟨[.i32, .i32], [.i32]⟩, [], [.localGet 1]⟩

/-- A guest that gives out memory from an address on. -/
def guest (memory : Memory) (next : UInt32) : Instance where
  functions := [allocator, second]
  exports :=
    [⟨memoryName, .memory, 0⟩, ⟨allocatorName, .function, 0⟩, ⟨"second", .function, 1⟩]
  state := ⟨memory, [.i32 next]⟩

theorem callWords_guest (m : Memory) (next n : UInt32) :
    interpreter.callWords (guest m next) allocatorName [n] = (.ok next, guest m (next + n)) := rfl

/-- This allocator changes no byte. -/
theorem memory_given {ds : List (Delivery Instance)} {m : Memory} {next : UInt32}
    {here : Instance} (chained : Chained (guest m next) ds here)
    (fills : ∀ d ∈ ds, d.Fills interpreter) :
    ∀ d ∈ ds, interpreter.memory d.given = interpreter.memory d.asked := by
  induction ds generalizing m next with
  | nil => simp
  | cons d ds ih =>
    obtain ⟨asked, rest⟩ := chained
    rw [List.forall_mem_cons] at fills ⊢
    have answered := fills.1.answered
    rw [asked, callWords_guest, Prod.mk.injEq] at answered
    have filled : d.filled = guest (interpreter.memory d.filled)
        (next + UInt32.ofNat (d.data.length + 4)) := by
      conv => lhs; rw [fills.1.frame, ← answered.2]
      rfl
    rw [filled] at rest
    exact ⟨by rw [← answered.2, asked]; rfl, ih rest fills.2⟩

end Bump

open Bump in
/-- Two arguments that are read back where the function is told that they are. -/
theorem two_arguments_read_back :
    ∃ here, interpreter.writeAll [[1, 2], [3]] (guest { pages := 1, limit := 1 } 8) =
        (.ok [8, 14], here) ∧ interpreter.accepts here "second" [8, 14] = true ∧
      [8, 14].map (interpreter.readBuffer here) = [.ok [1, 2], .ok [3]] := by
  have written : interpreter.writeAll [[1, 2], [3]] (guest { pages := 1, limit := 1 } 8) =
      (.ok [8, 14],
        (interpreter.writeAll [[1, 2], [3]] (guest { pages := 1, limit := 1 } 8)).2) := rfl
  have accepted : interpreter.accepts
      (interpreter.writeAll [[1, 2], [3]] (guest { pages := 1, limit := 1 } 8)).2 "second"
        [8, 14] = true := rfl
  obtain ⟨⟨ds, delivered⟩, -⟩ := arguments_delivered lawful_interpreter written accepted
  refine ⟨_, written, accepted, delivered.intact ?_ ?_⟩
  · obtain ⟨d, rest, rfl, data, others⟩ := List.map_eq_cons_iff.mp delivered.data_eq
    obtain ⟨d', rest, rfl, data', none⟩ := List.map_eq_cons_iff.mp others
    obtain rfl := List.map_eq_nil_iff.mp none
    have places := delivered.address_eq
    simp only [List.map_cons, List.map_nil, List.cons.injEq, and_true] at places
    rw [List.pairwise_pair]
    intro a inside inside'
    simp only [Delivery.Covers, data, data', places, List.length_cons, List.length_nil]
      at inside inside'
    have low : (8 : UInt32).toNat = 8 := rfl
    have high : (14 : UInt32).toNat = 14 := rfl
    omega
  · have same := memory_given delivered.chained delivered.fills
    refine (List.pairwise_of_forall_mem_list fun d _ later member a _ => ?_)
    rw [same later member]

end Notary.Guest
