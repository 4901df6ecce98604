/-
Bytes that tell messages apart.

A written value tells where it ends, and the key in front of it tells to which field it belongs. So
the bytes of a message fall into the values of its fields in one way only, and two messages with the
same bytes have the same values. This holds of messages of any size, also of those that no reader
would take because their lengths do not fit into a machine word.

* `Delimits` — a way of writing values after which the end of a value can be found.
* `Field.Tells` — the bytes of a field tell its value; one lemma for each kind of field.
* `Told.injective` — the bytes of a message tell the message when those of all its fields do.
-/

import Notary.Proofs.Wire.RoundTrip

namespace Notary.Wire

/-! ### Values -/

namespace Varint

theorem write_of_lt {n : Nat} (small : n < 128) : write n = [UInt8.ofNat n] := by
  rw [write, if_pos small]

theorem write_of_ge {n : Nat} (large : ¬ n < 128) :
    write n = UInt8.ofNat (n % 128 + 128) :: write (n / 128) := by
  rw [write, if_neg large]

/-- A byte tells the lowest eight bits of its number. -/
theorem mod_eq_of_ofNat_eq {a b : Nat} (same : UInt8.ofNat a = UInt8.ofNat b) :
    a % 256 = b % 256 := by
  have value := congrArg UInt8.toNat same
  rwa [UInt8.toNat_ofNat', UInt8.toNat_ofNat'] at value

end Varint

/-- Each written value tells where it ends. -/
def Delimits {α : Type} (write : α → Bytes) : Prop :=
  ∀ {a b : α} {x y : Bytes}, write a ++ x = write b ++ y → a = b ∧ x = y

namespace Delimits

variable {α β : Type} {write : α → Bytes}

/-- A value may be replaced by something else that determines it. -/
theorem comp (delimits : Delimits write) {f : β → α} (injective : Function.Injective f) :
    Delimits fun b => write (f b) := by
  intro a b x y same
  obtain ⟨value, rest⟩ := delimits same
  exact ⟨injective value, rest⟩

/-- The induction takes the bytes of the first number one by one; the top bit of each tells whether
there is another. -/
theorem varint : Delimits Varint.write := by
  intro a
  induction a using Nat.strongRecOn with
  | ind a ih =>
    intro b x y same
    by_cases small : a < 128
    · by_cases small' : b < 128
      · rw [Varint.write_of_lt small, Varint.write_of_lt small'] at same
        obtain ⟨byte, rest⟩ := List.cons.inj same
        have low := Varint.mod_eq_of_ofNat_eq byte
        exact ⟨by omega, rest⟩
      · rw [Varint.write_of_lt small, Varint.write_of_ge small'] at same
        have low := Varint.mod_eq_of_ofNat_eq (List.cons.inj same).1
        omega
    · by_cases small' : b < 128
      · rw [Varint.write_of_ge small, Varint.write_of_lt small'] at same
        have low := Varint.mod_eq_of_ofNat_eq (List.cons.inj same).1
        omega
      · rw [Varint.write_of_ge small, Varint.write_of_ge small'] at same
        obtain ⟨byte, more⟩ := List.cons.inj same
        obtain ⟨high, rest⟩ := ih (a / 128) (by omega) more
        have low := Varint.mod_eq_of_ofNat_eq byte
        exact ⟨by omega, rest⟩

theorem blob : Delimits Scalar.blob.write := by
  intro a b x y same
  simp only [Scalar.blob, List.append_assoc] at same
  obtain ⟨length, bytes⟩ := varint same
  exact List.append_inj bytes length

theorem text : Delimits Scalar.text.write := blob.comp fun _ _ => Bytes.ofText_injective

theorem enumeration : Delimits Scalar.enumeration.write := by
  refine varint.comp ?_
  intro i j same
  rw [← Scalar.ofNat_signedToNat i, same, Scalar.ofNat_signedToNat]

/-- An embedded message stands behind its length. -/
theorem nested {f : Format α} (injective : Function.Injective f.write) :
    Delimits f.writeNested :=
  blob.comp injective

end Delimits

/-! ### Fields -/

variable {M α : Type}

/-- The bytes do not go on with a value of the field. -/
def Past (number : Nat) (bs : Bytes) : Prop := ∀ w more, bs ≠ Key.write number w ++ more

theorem past_nil (number : Nat) : Past number [] := by
  intro w more same
  obtain ⟨empty, -⟩ := List.append_eq_nil_iff.mp same.symm
  exact Varint.write_ne_nil _ empty

/-- A key tells its field. -/
theorem past_key {number other : Nat} (different : other ≠ number) (w : WireType) (more : Bytes) :
    Past number (Key.write other w ++ more) := by
  intro w' more' same
  obtain ⟨key, -⟩ := Delimits.varint same
  have low := w.number_lt
  have low' := w'.number_lt
  omega

/-- Values that stand one after the other, each behind the key of the field, are told up to the
first that belongs to another field. -/
theorem values_of_keyed {write : α → Bytes} (delimits : Delimits write) {number : Nat}
    {w : WireType} {vs vs' : List α} {x y : Bytes} (past : Past number x) (past' : Past number y)
    (same : (vs.flatMap fun v => Key.write number w ++ write v) ++ x =
      (vs'.flatMap fun v => Key.write number w ++ write v) ++ y) :
    vs = vs' ∧ x = y := by
  induction vs generalizing vs' with
  | nil =>
    cases vs' with
    | nil => exact ⟨rfl, same⟩
    | cons v' vs' =>
      simp only [List.flatMap_nil, List.nil_append, List.flatMap_cons, List.append_assoc] at same
      exact absurd same (past w _)
  | cons v vs ih =>
    cases vs' with
    | nil =>
      simp only [List.flatMap_nil, List.nil_append, List.flatMap_cons, List.append_assoc] at same
      exact absurd same.symm (past' w _)
    | cons v' vs' =>
      simp only [List.flatMap_cons, List.append_assoc] at same
      obtain ⟨rfl, more⟩ := delimits (List.append_cancel_left same)
      obtain ⟨rfl, rest⟩ := ih more
      exact ⟨rfl, rest⟩

/-- What the field wrote tells its value, and where it ends if something of another field follows. -/
structure Field.Tells (fd : Field M) (get : M → α) : Prop where
  keyed : ∀ m, fd.encode m = [] ∨ ∃ w more, fd.encode m = Key.write fd.number w ++ more
  told : ∀ m m' x y, Past fd.number x → Past fd.number y → fd.encode m ++ x = fd.encode m' ++ y →
    get m = get m' ∧ x = y

/-- A field tells its value if that is made of the values that stand behind its keys. -/
theorem Field.Tells.of_values {β : Type} {fd : Field M} {get : M → α} {write : β → Bytes}
    (delimits : Delimits write) (w : WireType) (values : M → List β)
    (encoded : ∀ m, fd.encode m = (values m).flatMap fun v => Key.write fd.number w ++ write v)
    (value : ∀ m m', values m = values m' → get m = get m') : fd.Tells get := by
  constructor
  · intro m
    rw [encoded]
    cases values m with
    | nil => exact .inl rfl
    | cons v vs => exact .inr ⟨w, _, by rw [List.flatMap_cons, List.append_assoc]⟩
  · intro m m' x y past past' same
    rw [encoded, encoded] at same
    obtain ⟨vs, rest⟩ := values_of_keyed delimits past past' same
    exact ⟨value m m' vs, rest⟩

theorem tells_scalar [DecidableEq α] {s : Scalar α} (delimits : Delimits s.write) {number : Nat}
    {name : String} {get : M → α} {set : α → M → M} :
    (Field.scalar s number name get set).Tells get := by
  refine .of_values delimits s.wire (fun m => if get m = s.blank then [] else [get m]) ?_ ?_
  · intro m
    simp only [Field.scalar]
    split <;> simp
  · intro m m' same
    by_cases blank : get m = s.blank <;> by_cases blank' : get m' = s.blank <;>
      simp_all

theorem tells_optional {f : Format α} (injective : Function.Injective f.write) {number : Nat}
    {name : String} {get : M → Option α} {set : Option α → M → M} :
    (Field.optional f number name get set).Tells get := by
  refine .of_values (Delimits.nested injective) .delimited (fun m => (get m).toList) ?_ ?_
  · intro m
    simp only [Field.optional]
    cases get m <;> simp
  · intro m m' same
    have value := congrArg List.head? same
    simpa only [Option.head?_toList] using value

theorem tells_repeated {f : Format α} (injective : Function.Injective f.write) {number : Nat}
    {name : String} {get : M → List α} {set : List α → M → M} :
    (Field.repeated f number name get set).Tells get :=
  .of_values (Delimits.nested injective) .delimited get (fun _ => rfl) fun _ _ same => same

/-! ### Whole messages -/

/-- The fields tell their values, so messages with the same bytes agree in all of them. -/
inductive Told : List (Field M) → (M → M → Prop) → Prop where
  | nil : Told [] fun _ _ => True
  | cons {α : Type} {fd : Field M} {fds : List (Field M)} {get : M → α} {same : M → M → Prop}
      (first : fd.Tells get) (later : Told fds same) :
      Told (fd :: fds) fun m m' => get m = get m' ∧ same m m'

namespace Told

variable {fds : List (Field M)} {same : M → M → Prop}

/-- What other fields wrote does not go on with the field. -/
theorem past (told : Told fds same) {number : Nat} (other : ∀ fd ∈ fds, fd.number ≠ number)
    (m : M) : Past number (fds.flatMap (·.encode m)) := by
  induction told with
  | nil => exact past_nil number
  | @cons _ fd fds _ _ first _ ih =>
    have past := ih fun later member => other later (by simp [member])
    rw [List.flatMap_cons]
    rcases first.keyed m with empty | ⟨w, more, keyed⟩
    · rwa [empty, List.nil_append]
    · rw [keyed, List.append_assoc]
      exact past_key (other fd (by simp)) w _

theorem values (told : Told fds same) (distinct : (fds.map (·.number)).Nodup) {m m' : M}
    (bytes : fds.flatMap (·.encode m) = fds.flatMap (·.encode m')) : same m m' := by
  induction told with
  | nil => trivial
  | @cons _ fd fds _ _ first later ih =>
    rw [List.map_cons, List.nodup_cons] at distinct
    have other : ∀ later ∈ fds, later.number ≠ fd.number := by
      intro later member number
      exact distinct.1 (number ▸ List.mem_map_of_mem member)
    rw [List.flatMap_cons, List.flatMap_cons] at bytes
    obtain ⟨value, rest⟩ := first.told m m' _ _ (later.past other m) (later.past other m') bytes
    exact ⟨value, ih distinct.2 rest⟩

/-- Messages with the same bytes are the same, if the fields are all that there is to a message. -/
theorem injective {f : Format M} (told : Told f.fields same)
    (distinct : (f.fields.map (·.number)).Nodup) (whole : ∀ m m', same m m' → m = m') :
    Function.Injective f.write :=
  fun m m' bytes => whole m m' (told.values distinct bytes)

end Told

end Notary.Wire
