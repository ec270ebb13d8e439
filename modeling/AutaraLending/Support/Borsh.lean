import AutaraLending.Support.Pod

/-! Byte formats that are read back from the front of a byte string. -/

namespace Support

/-- A format writes a value unless it is too long for it, and reads what it wrote whatever
follows. -/
class Borsh (α : Type) where
  serialize : α → Option (List UInt8)
  deserialize : List UInt8 → Option (α × List UInt8)
  deserialize_serialize (a : α) (bytes rest : List UInt8) (written : serialize a = some bytes) :
    deserialize (bytes ++ rest) = some (a, rest)

namespace Borsh

variable {α β : Type}

/-- A format that writes every value. -/
class Total (α : Type) [Borsh α] : Prop where
  isSome_serialize : ∀ a : α, (serialize a).isSome

def followedBy (front back : Option (List UInt8)) : Option (List UInt8) := do
  let front ← front
  let back ← back
  pure (front ++ back)

theorem followedBy_some {front back : Option (List UInt8)} {bytes : List UInt8} :
    followedBy front back = some bytes ↔
      ∃ head tail, front = some head ∧ back = some tail ∧ head ++ tail = bytes := by
  cases front <;> cases back <;> simp [followedBy]

@[simp] theorem isSome_followedBy (front back : Option (List UInt8)) :
    (followedBy front back).isSome = (front.isSome && back.isSome) := by
  cases front <;> cases back <;> rfl

theorem deserialize_bind [Borsh α] {a : α} {bytes : List UInt8}
    (written : serialize a = some bytes) (rest : List UInt8)
    (next : α × List UInt8 → Option β) :
    (deserialize (bytes ++ rest) >>= next) = next (a, rest) := by
  rw [deserialize_serialize a bytes rest written]
  rfl

def deserializeAs [Borsh α] (wrap : α → β) (reader : List UInt8) : Option (β × List UInt8) := do
  let (a, reader) ← deserialize reader
  pure (wrap a, reader)

theorem deserializeAs_serialize [Borsh α] (wrap : α → β) {a : α} {bytes : List UInt8}
    (written : serialize a = some bytes) (rest : List UInt8) :
    deserializeAs wrap (bytes ++ rest) = some (wrap a, rest) := by
  rw [deserializeAs, deserialize_bind written]
  rfl

def variant [Borsh α] [Borsh β] (tag : α) (payload : β) : Option (List UInt8) :=
  followedBy (serialize tag) (serialize payload)

theorem isSome_variant [Borsh α] [Borsh β] [Total α] (tag : α) (payload : β) :
    (variant tag payload).isSome = (serialize payload).isSome := by
  rw [variant, isSome_followedBy, Total.isSome_serialize, Bool.true_and]

/-! Formats of parts and of what is made of them. -/

@[reducible] def ofPod [Pod α] : Borsh α where
  serialize a := some (Pod.bytesOf a)
  deserialize reader :=
    if reader.length < Pod.size α then none
    else some (Pod.fromBytes (reader.take (Pod.size α)), reader.drop (Pod.size α))
  deserialize_serialize a bytes rest written := by
    obtain rfl : Pod.bytesOf a = bytes := Option.some.inj written
    have front := Pod.length_bytesOf a
    have enough : ¬ (Pod.bytesOf a ++ rest).length < Pod.size α := by
      rw [List.length_append]
      omega
    rw [if_neg enough, List.take_left' front, List.drop_left' front, Pod.fromBytes_bytesOf]

theorem total_ofPod [Pod α] : @Total α ofPod := @Total.mk α ofPod fun _ => rfl

instance unit : Borsh Unit where
  serialize _ := some []
  deserialize reader := some ((), reader)
  deserialize_serialize _ bytes rest written := by
    obtain rfl : [] = bytes := Option.some.inj written
    rfl

instance pair [Borsh α] [Borsh β] : Borsh (α × β) where
  serialize ab := followedBy (serialize ab.1) (serialize ab.2)
  deserialize reader := do
    let (a, reader) ← deserialize reader
    let (b, reader) ← deserialize reader
    pure ((a, b), reader)
  deserialize_serialize ab bytes rest written := by
    obtain ⟨head, tail, first, second, rfl⟩ := followedBy_some.mp written
    rw [List.append_assoc, deserialize_bind first]
    change (deserialize (tail ++ rest) >>= fun _ => _) = _
    rw [deserialize_bind second]
    rfl

@[reducible] def ofFields [Borsh β] (fields : α → β) (make : β → Option α)
    (lawful : ∀ a, make (fields a) = some a) : Borsh α where
  serialize a := serialize (fields a)
  deserialize reader := do
    let (b, reader) ← deserialize reader
    let a ← make b
    pure (a, reader)
  deserialize_serialize a bytes rest written := by
    rw [deserialize_bind written]
    simp only [lawful]
    rfl

structure Padding (count : Nat) where
  deriving DecidableEq

instance padding (count : Nat) : Borsh (Padding count) where
  serialize _ := some (List.replicate count 0)
  deserialize reader := if reader.length < count then none else some ({}, reader.drop count)
  deserialize_serialize _ bytes rest written := by
    obtain rfl : List.replicate count 0 = bytes := Option.some.inj written
    have front : (List.replicate count (0 : UInt8)).length = count := List.length_replicate
    have enough : ¬ (List.replicate count (0 : UInt8) ++ rest).length < count := by
      rw [List.length_append]
      omega
    rw [if_neg enough, List.drop_left' front]

instance (count : Nat) : Total (Padding count) := ⟨fun _ => rfl⟩

instance : Total Unit := ⟨fun _ => rfl⟩

theorem isSome_serialize_pair [Borsh α] [Borsh β] [Total α] (a : α) (b : β) :
    (serialize (a, b)).isSome = (serialize b).isSome := by
  change (followedBy (serialize a) (serialize b)).isSome = _
  rw [isSome_followedBy, Total.isSome_serialize, Bool.true_and]

instance [Borsh α] [Borsh β] [Total α] [Total β] : Total (α × β) where
  isSome_serialize ab := (isSome_serialize_pair ab.1 ab.2).trans (Total.isSome_serialize ab.2)

def tagged (tag : UInt8) (payload : Option (List UInt8)) : Option (List UInt8) :=
  followedBy (some [tag]) payload

theorem tagged_some {tag : UInt8} {payload : Option (List UInt8)} {bytes : List UInt8} :
    tagged tag payload = some bytes ↔ ∃ tail, payload = some tail ∧ tag :: tail = bytes := by
  simp [tagged, followedBy_some]

theorem isSome_tagged {tag : UInt8} {payload : Option (List UInt8)} (total : payload.isSome) :
    (tagged tag payload).isSome := by
  rw [tagged, isSome_followedBy, total]
  rfl

instance bool : Borsh Bool where
  serialize b := some [if b then 1 else 0]
  deserialize
    | 0 :: rest => some (false, rest)
    | 1 :: rest => some (true, rest)
    | _ => none
  deserialize_serialize b bytes rest written := by
    obtain rfl : [if b then 1 else 0] = bytes := Option.some.inj written
    cases b <;> rfl

instance : Total Bool := ⟨fun _ => rfl⟩

instance option [Borsh α] : Borsh (Option α) where
  serialize
    | none => some [0]
    | some a => tagged 1 (serialize a)
  deserialize
    | 0 :: rest => some (none, rest)
    | 1 :: rest => deserializeAs some rest
    | _ => none
  deserialize_serialize a bytes rest written := by
    cases a with
    | none =>
        obtain rfl : [0] = bytes := Option.some.inj written
        rfl
    | some a =>
        obtain ⟨tail, payload, rfl⟩ := tagged_some.mp written
        exact deserializeAs_serialize some payload rest

instance [Borsh α] [Total α] : Total (Option α) where
  isSome_serialize a := by
    cases a with
    | none => rfl
    | some a =>
        change (tagged 1 (serialize a)).isSome = true
        exact isSome_tagged (Total.isSome_serialize a)

section Lists

variable [Borsh α]

def serializeMany : List α → Option (List UInt8)
  | [] => some []
  | a :: rest => followedBy (serialize a) (serializeMany rest)

def deserializeMany : Nat → List UInt8 → Option (List α × List UInt8)
  | 0, reader => some ([], reader)
  | count + 1, reader => do
      let (a, reader) ← deserialize reader
      let (rest, reader) ← deserializeMany count reader
      pure (a :: rest, reader)

theorem deserializeMany_serializeMany (values : List α) (bytes rest : List UInt8)
    (written : serializeMany values = some bytes) :
    deserializeMany values.length (bytes ++ rest) = some (values, rest) := by
  induction values generalizing bytes with
  | nil =>
      obtain rfl : [] = bytes := Option.some.inj written
      rfl
  | cons a values ih =>
      obtain ⟨head, tail, first, others, rfl⟩ := followedBy_some.mp written
      rw [List.length_cons, deserializeMany, List.append_assoc, deserialize_bind first]
      simp only [ih tail others]
      rfl

theorem isSome_serializeMany [Total α] (values : List α) : (serializeMany values).isSome := by
  induction values with
  | nil => rfl
  | cons a values ih => simp [serializeMany, Total.isSome_serialize, ih]

instance list : Borsh (List α) where
  serialize values :=
    if values.length < 2 ^ 32 then
      followedBy (some (LittleEndian.encode 4 values.length)) (serializeMany values)
    else none
  deserialize reader :=
    if reader.length < 4 then none
    else deserializeMany (LittleEndian.decode (reader.take 4)) (reader.drop 4)
  deserialize_serialize values bytes rest written := by
    obtain ⟨short, parts⟩ := Option.ite_none_right_eq_some.mp written
    obtain ⟨_, tail, rfl, others, rfl⟩ := by
      simpa only [followedBy_some, Option.some.injEq] using parts
    have front : (LittleEndian.encode 4 values.length).length = 4 :=
      LittleEndian.length_encode 4 values.length
    have enough : ¬ (LittleEndian.encode 4 values.length ++ tail ++ rest).length < 4 := by
      rw [List.length_append, List.length_append]
      omega
    rw [if_neg enough, List.append_assoc, List.take_left' front, List.drop_left' front,
      LittleEndian.decode_encode 4 _ short]
    exact deserializeMany_serializeMany values tail rest others

theorem isSome_serialize_list [Total α] (values : List α) :
    (serialize values).isSome ↔ values.length < 2 ^ 32 := by
  change (if values.length < 2 ^ 32 then
    followedBy (some (LittleEndian.encode 4 values.length)) (serializeMany values)
    else none).isSome ↔ _
  by_cases short : values.length < 2 ^ 32
  · rw [if_pos short, isSome_followedBy, isSome_serializeMany values]
    exact iff_of_true rfl short
  · rw [if_neg short]
    exact iff_of_false Bool.false_ne_true short

end Lists

section Variants

variable [DecidableEq α]

@[reducible] def ofVariants (variants : List α) (complete : ∀ a, a ∈ variants)
    (few : variants.length ≤ 256) : Borsh α where
  serialize a := some [UInt8.ofNat (variants.idxOf a)]
  deserialize
    | [] => none
    | byte :: rest => variants[byte.toNat]?.map (·, rest)
  deserialize_serialize a bytes rest written := by
    obtain rfl : [UInt8.ofNat (variants.idxOf a)] = bytes := Option.some.inj written
    have within : variants.idxOf a < variants.length := List.idxOf_lt_length_of_mem (complete a)
    have exact_byte : (UInt8.ofNat (variants.idxOf a)).toNat = variants.idxOf a := by
      rw [UInt8.toNat_ofNat']
      exact Nat.mod_eq_of_lt (by omega)
    simp only [List.cons_append, List.nil_append, exact_byte]
    rw [List.getElem?_eq_getElem within, List.getElem_idxOf within]
    rfl

end Variants

end Borsh

end Support
