/-
Stun/Proofs/Value/Acceptance.lean

Which values the getters accept, and that they lose nothing.

A value comes from the network and may be any octets.  For each kind a value
that is read is the writing of what is read, so a kind has one value for each
thing and a getter forgets nothing (`Endpoint.eq_octets_of_read`,
`TypeList.readTypes_eq_some_iff`, `Octets.text?_eq_some_iff`).  Which values
there are is said of the octets alone: how many there are, the first two of
them, or that they encode characters.  For an address, whose value can be wrong
in three ways, the first that applies is reported (`Endpoint.read_cases`).

Main result: every getter accepts exactly the values of its kind, reports what
is wrong with any other, and what it returns can be put under the same type
into any message with the same id, where it becomes the same octets again, if
it is not too long (`lossless_of_get`).
-/
import Stun.Proofs.Value.Getters
import Stun.Proofs.Wire.Overflow

namespace Stun

/-! ### Texts -/

namespace Octets

variable {bs : List UInt8} {s : String}

/-- The octets are those of characters in UTF-8, one after the other. -/
def IsUtf8 (bs : List UInt8) : Prop := ∃ cs : List Char, bs = cs.flatMap String.utf8EncodeChar

theorem isUtf8_iff_isValidUTF8 : IsUtf8 bs ↔ ByteArray.IsValidUTF8 ⟨bs.toArray⟩ := by
  constructor
  · rintro ⟨cs, rfl⟩
    refine .intro cs (ByteArray.ext ?_)
    rw [List.utf8Encode, List.data_toByteArray]
  · rintro ⟨cs, hcs⟩
    refine ⟨cs, ?_⟩
    have hdata := congrArg ByteArray.data hcs
    rw [List.utf8Encode, List.data_toByteArray] at hdata
    exact List.toArray_inj hdata

/-- A text is read from its own octets and no others. -/
theorem text?_eq_some_iff : text? bs = some s ↔ bs = ofText s := by
  constructor
  · intro h
    rw [text?, String.fromUTF8?] at h
    split at h
    · obtain rfl := Option.some.inj h
      rfl
    · cases h
  · rintro rfl
    exact text?_ofText s

theorem text?_eq_none_iff : text? bs = none ↔ ¬ IsUtf8 bs := by
  rw [isUtf8_iff_isValidUTF8, text?, String.fromUTF8?]
  split <;> simp_all

end Octets

/-! ### Lists of types -/

namespace TypeList

/-- Types are read from their own octets and no others. -/
theorem readTypes_eq_some_iff {v : List UInt8} {types : List AttributeType} :
    readTypes v = some types ↔ v = octets ⟨types⟩ := by
  constructor
  · intro h
    fun_induction readTypes v generalizing types with
    | case1 =>
      obtain rfl := Option.some.inj h
      rfl
    | case2 => cases h
    | case3 a b r ih =>
      obtain ⟨rest, hrest, rfl⟩ := Option.map_eq_some_iff.mp h
      have hpair : Octets.bigEndian 2 (UInt16.ofNat (Octets.toNat [a, b])).toNat = [a, b] :=
        Octets.bigEndian_ofNat_toNat rfl
      show [a, b] ++ r = Octets.bigEndian 2 _ ++ octets ⟨rest⟩
      rw [hpair, ih hrest]
  · rintro rfl
    exact readTypes_octets types

/-- Types come in pairs of octets. -/
theorem readTypes_eq_none_iff {v : List UInt8} : readTypes v = none ↔ v.length % 2 = 1 := by
  fun_induction readTypes v with
  | case1 => simp
  | case2 => simp
  | case3 a b r ih =>
    rw [Option.map_eq_none_iff, ih, List.length_cons, List.length_cons]
    omega

end TypeList

/-! ### Addresses -/

namespace AddressFamily

variable {n : UInt16} {f : AddressFamily}

theorem ofCode?_eq_some_iff : ofCode? n = some f ↔ n = f.code := by
  constructor
  · intro h
    rw [ofCode?] at h
    split at h
    case isTrue hn =>
      obtain rfl := Option.some.inj h
      exact hn
    case isFalse =>
      split at h
      case isTrue hn =>
        obtain rfl := Option.some.inj h
        exact hn
      case isFalse => cases h
  · rintro rfl
    exact ofCode?_code f

theorem ofCode?_eq_none_iff : ofCode? n = none ↔ n ≠ 1 ∧ n ≠ 2 := by
  rw [ofCode?]
  split <;> simp_all

end AddressFamily

namespace Endpoint

variable {v : List UInt8} {e : Endpoint} {err err' : Error}

/-- The value of an address of either family, as its size and its first two
octets tell. -/
def Fits (v : List UInt8) : Prop :=
  v.length = 8 ∧ v.take 2 = [0, 1] ∨ v.length = 20 ∧ v.take 2 = [0, 2]

/-- What is wrong with the value of no address: it has no room for a family, a
port and more; or else it names no family; or else it has another size than
the family it names. -/
inductive Misfit (v : List UInt8) : Error → Prop
  | truncated (short : v.length ≤ 4) : Misfit v .truncated
  | badFamily (n : UInt16) (long : 4 < v.length) (front : v.take 2 = Octets.bigEndian 2 n.toNat)
      (unknown : n ≠ 1 ∧ n ≠ 2) : Misfit v (.badFamily n)
  | badAddressSize (f : AddressFamily) (long : 4 < v.length)
      (front : v.take 2 = Octets.bigEndian 2 f.code.toNat) (size : v.length ≠ 4 + f.size) :
      Misfit v .badAddressSize

theorem fits_iff : Fits v ↔ ∃ f : AddressFamily,
    v.length = 4 + f.size ∧ v.take 2 = Octets.bigEndian 2 f.code.toNat := by
  constructor
  · rintro (⟨hsize, hfront⟩ | ⟨hsize, hfront⟩)
    · exact ⟨.v4, hsize, hfront⟩
    · exact ⟨.v6, hsize, hfront⟩
  · rintro ⟨f, hsize, hfront⟩
    cases f with
    | v4 => exact .inl ⟨hsize, hfront⟩
    | v6 => exact .inr ⟨hsize, hfront⟩

/-- The word at the front is one number. -/
theorem eq_of_front {n n' : UInt16} (h : v.take 2 = Octets.bigEndian 2 n.toNat)
    (h' : v.take 2 = Octets.bigEndian 2 n'.toNat) : n = n' := by
  have hsame := congrArg (fun bs => UInt16.ofNat (Octets.toNat bs)) (h.symm.trans h')
  simpa only [Octets.ofNat_toNat_bigEndian] using hsame

theorem code_known (f : AddressFamily) : ¬ (f.code ≠ 1 ∧ f.code ≠ 2) := by
  cases f <;> decide

theorem code_injective {f f' : AddressFamily} (h : f.code = f'.code) : f = f' := by
  have hfound := AddressFamily.ofCode?_code f
  rw [h, AddressFamily.ofCode?_code, Option.some.injEq] at hfound
  exact hfound.symm

/-- Nothing is wrong with a value that fits. -/
theorem Misfit.not_fits (h : Misfit v err) : ¬ Fits v := by
  rw [fits_iff]
  rintro ⟨f, hsize, hfront⟩
  have hpos : 0 < f.size := by cases f <;> decide
  cases h with
  | truncated short => omega
  | badFamily n _ front unknown =>
    obtain rfl := eq_of_front front hfront
    exact code_known f unknown
  | badAddressSize f' _ front size =>
    obtain rfl := code_injective (eq_of_front front hfront)
    exact size hsize

/-- Only the first thing that is wrong counts. -/
theorem Misfit.unique (h : Misfit v err) (h' : Misfit v err') : err = err' := by
  cases h with
  | truncated short =>
    cases h' with
    | truncated _ => rfl
    | badFamily _ long _ _ | badAddressSize _ long _ _ => omega
  | badFamily n long front unknown =>
    cases h' with
    | truncated short => omega
    | badFamily n' _ front' _ => rw [eq_of_front front front']
    | badAddressSize f _ front' _ =>
      obtain rfl := eq_of_front front front'
      exact absurd unknown (code_known f)
  | badAddressSize f long front size =>
    cases h' with
    | truncated short => omega
    | badFamily n' _ front' unknown =>
      obtain rfl := eq_of_front front front'
      exact absurd unknown (code_known f)
    | badAddressSize _ _ _ _ => rfl

/-- How a value is read that has room for a family, a port and an address. -/
theorem read_of_long (h : 4 < v.length) :
    read v = match AddressFamily.ofCode? (UInt16.ofNat (Octets.toNat (v.take 2))) with
      | none => .error (.badFamily (UInt16.ofNat (Octets.toNat (v.take 2))))
      | some f =>
        if hsize : (v.drop 4).length = f.size then
          .ok ⟨⟨f, v.drop 4, hsize⟩, UInt16.ofNat (Octets.toNat ((v.drop 2).take 2))⟩
        else
          .error .badAddressSize := by
  have hfamily : Message.field v 0 2 = some (Octets.toNat (v.take 2)) := by
    rw [Message.field, Octets.slice?_eq_some_iff.mpr ⟨Nat.zero_le 2, by omega, rfl⟩]
    rfl
  have hport : Message.field v 2 4 = some (Octets.toNat ((v.drop 2).take 2)) := by
    rw [Message.field, Octets.slice?_eq_some_iff.mpr ⟨by decide, by omega, rfl⟩, Option.map_some,
      List.drop_take]
  have haddress : Octets.slice? v 4 v.length = some (v.drop 4) := by
    rw [Octets.slice?_eq_some_iff.mpr ⟨by omega, Nat.le_refl _, rfl⟩, List.take_length]
  rewrite [read, if_neg (Nat.not_le.mpr h), hfamily, hport, haddress]
  rfl

/-- **A value is the writing of an address, or one thing is wrong with it.** -/
theorem read_cases (v : List UInt8) :
    (∃ e, read v = .ok e ∧ Fits v ∧ v = e.octets) ∨ ∃ err, read v = .error err ∧ Misfit v err := by
  rcases Nat.lt_or_ge 4 v.length with hlong | hshort
  swap
  · exact .inr ⟨.truncated, by rw [read, if_pos hshort], .truncated hshort⟩
  have hfront : v.take 2
      = Octets.bigEndian 2 (UInt16.ofNat (Octets.toNat (v.take 2))).toNat := by
    refine (Octets.bigEndian_ofNat_toNat ?_).symm
    rw [List.length_take]
    omega
  have hport : (v.drop 2).take 2
      = Octets.bigEndian 2 (UInt16.ofNat (Octets.toNat ((v.drop 2).take 2))).toNat := by
    refine (Octets.bigEndian_ofNat_toNat ?_).symm
    rw [List.length_take, List.length_drop]
    omega
  have hdrop : (v.drop 4).length = v.length - 4 := List.length_drop
  rw [read_of_long hlong]
  rcases hcode : AddressFamily.ofCode? (UInt16.ofNat (Octets.toNat (v.take 2))) with - | f
  · exact .inr ⟨_, rfl, .badFamily _ hlong hfront (AddressFamily.ofCode?_eq_none_iff.mp hcode)⟩
  · rw [AddressFamily.ofCode?_eq_some_iff.mp hcode] at hfront
    by_cases hsize : (v.drop 4).length = f.size
    · refine .inl ⟨_, dif_pos hsize, fits_iff.mpr ⟨f, by omega, hfront⟩, ?_⟩
      -- the three pieces make up the value again
      show v = Octets.bigEndian 2 f.code.toNat ++ Octets.bigEndian 2 _ ++ v.drop 4
      rw [← hfront, ← hport, List.append_assoc, ← List.drop_drop (i := 2) (j := 2),
        List.take_append_drop, List.take_append_drop]
    · exact .inr ⟨_, dif_neg hsize, .badAddressSize f hlong hfront (by omega)⟩

end Endpoint

/-! ### Putting a value in again -/

namespace Message

variable {m n : Message} {t : AttributeType} {v : List UInt8}

/-- What putting an attribute into `n` comes to: it is appended as the value
`v` under the type `t`, which a lookup then finds; or it is refused for its
size, which is above the limit that is named or too great for the message, and
the message stays as it was. -/
def Stores (n : Message) (t : AttributeType) (v : List UInt8)
    (result : Except Error Unit × Message) : Prop :=
  (∃ n', result = (.ok (), n') ∧ n.add t v = .ok n' ∧ n'.get t = .ok v) ∨
  ∃ max, result = (.error (.sizeOverflow t v.length max), n) ∧
    (max < v.length ∨ lengthLimit < n.length + (attributeHeaderSize + padded v.length))

/-- Octets under a type that was not there are what is found under it. -/
theorem stores_add (hnew : n.contains t = false) : n.Stores t v (Edit.add t v n) := by
  rcases hadd : n.add t v with err | n'
  · obtain ⟨hbig, rfl⟩ := add_eq_error_iff.mp hadd
    exact .inr ⟨n.room, editAdd_eq_error_iff.mpr ⟨hadd, rfl⟩, .inr hbig⟩
  · refine .inl ⟨n', editAdd_eq_ok_iff.mpr hadd, hadd, ?_⟩
    exact get_append (attributes_of_add hadd) (contains_eq_false_iff.mp hnew) rfl

end Message

/-- A type with a limit of its own may refuse a text that another one takes. -/
theorem Text.stores_addTo {x : Text} {n : Message} (hnew : n.contains x.type = false) :
    n.Stores x.type (Octets.ofText x.text) (x.addTo n) := by
  rw [Text.addTo]
  split
  · split
    case isTrue hbig => exact .inr ⟨_, rfl, .inl hbig⟩
    case isFalse => exact Message.stores_add hnew
  · exact Message.stores_add hnew

/-- What a getter makes of the value `v`, found under the type `t` in `m`.  It
accepts the value if it fits, and reports what is wrong with one that does not;
and what it got can be put into any message with the same id that lacks the
type, to become the same value again. -/
structure Lossless {α : Type} (m : Message) (t : AttributeType) (v : List UInt8)
    (got : Except Error α) (put : α → Edit) (fits : Prop) (misfit : Error → Prop) : Prop where
  accepted : (∃ x, got = .ok x) ↔ fits
  refused : ∀ err, got = .error err ↔ misfit err
  stored : ∀ x, got = .ok x → ∀ n : Message, n.id = m.id → n.contains t = false →
    n.Stores t v (put x n)

section Lossless

variable {α : Type} {m : Message} {t : AttributeType} {v : List UInt8}
variable {got : Except Error α} {put : α → Edit} {fits : Prop} {misfit : Error → Prop}

/-- **Two cases make a getter lossless**, if they exclude each other and there
is one thing wrong at most. -/
theorem Lossless.of_cases (hdisjoint : ∀ err, misfit err → ¬ fits)
    (hunique : ∀ err err', misfit err → misfit err' → err = err')
    (hcases : (∃ x, got = .ok x ∧ fits ∧ ∀ n : Message, n.id = m.id → n.contains t = false →
        n.Stores t v (put x n)) ∨
      ∃ err, got = .error err ∧ misfit err) : Lossless m t v got put fits misfit := by
  rcases hcases with ⟨x, rfl, hfits, hstores⟩ | ⟨err, rfl, hmisfit⟩
  · refine ⟨⟨fun _ => hfits, fun _ => ⟨x, rfl⟩⟩, fun err => ⟨nofun, fun hmisfit => ?_⟩, ?_⟩
    · exact absurd hfits (hdisjoint err hmisfit)
    · rintro _ ⟨⟩
      exact hstores
  · refine ⟨⟨nofun, fun hfits => ?_⟩, fun err' => ⟨?_, fun hmisfit' => ?_⟩, nofun⟩
    · exact absurd hfits (hdisjoint err hmisfit)
    · rintro ⟨⟩
      exact hmisfit
    · rw [hunique err err' hmisfit hmisfit']

/-- The same for a kind that reports one thing only. -/
theorem Lossless.of_unless {err : Error}
    (hcases : (∃ x, got = .ok x ∧ fits ∧ ∀ n : Message, n.id = m.id → n.contains t = false →
        n.Stores t v (put x n)) ∨
      got = .error err ∧ ¬ fits) :
    Lossless m t v got put fits (fun err' => ¬ fits ∧ err' = err) := by
  apply Lossless.of_cases
  · exact fun _ hmisfit => hmisfit.1
  · exact fun _ _ hmisfit hmisfit' => hmisfit.2.trans hmisfit'.2.symm
  · exact hcases.imp_right fun ⟨hgot, hnot⟩ => ⟨err, hgot, hnot, rfl⟩

/-! ### The getters -/

section Found

variable (h : m.get t = .ok v)
include h

theorem Endpoint.lossless_getFrom :
    Lossless m t v (getFrom m t) (fun e => e.addTo t) (Fits v) (Misfit v) := by
  have hgot : getFrom m t = read v := by
    rw [getFrom, h]
    rfl
  rw [hgot]
  apply Lossless.of_cases (fun _ => Misfit.not_fits) (fun _ _ => Misfit.unique)
  obtain ⟨e, he, hfits, rfl⟩ | hrefused := read_cases v
  · exact .inl ⟨e, he, hfits, fun n _ hnew => Message.stores_add hnew⟩
  · exact .inr hrefused

/-- The mask that is taken off is the one that is put on, under the same id. -/
theorem Endpoint.lossless_getMaskedFrom :
    Lossless m t v (getMaskedFrom m t) (fun e => e.addMaskedTo t) (Fits v) (Misfit v) := by
  have hgot : getMaskedFrom m t = (read v).map (mask m.id) := by
    rw [getMaskedFrom, h]
    rfl
  rw [hgot]
  apply Lossless.of_cases (fun _ => Misfit.not_fits) (fun _ _ => Misfit.unique)
  obtain ⟨e, he, hfits, rfl⟩ | ⟨err, herr, hmisfit⟩ := read_cases v
  · refine .inl ⟨mask m.id e, by rw [he]; rfl, hfits, fun n hid hnew => ?_⟩
    rw [addMaskedTo, hid, mask_mask]
    exact Message.stores_add hnew
  · exact .inr ⟨err, by rw [herr]; rfl, hmisfit⟩

/-- A number takes as many octets as its width, whatever they are. -/
theorem Number.lossless_getFrom {size : Nat} {ofNat : Nat → α} {toNat : α → Nat}
    (hback : ∀ k < 256 ^ size, toNat (ofNat k) = k) :
    Lossless m t v ((getFrom m t size).map ofNat)
      (fun x => Edit.add t (Octets.bigEndian size (toNat x))) (v.length = size)
      (fun err => ¬ v.length = size ∧ err = .sizeMismatch t v.length size) := by
  have hgot : getFrom m t size = read t size v := by
    rw [getFrom, h]
    rfl
  rw [hgot]
  apply Lossless.of_unless
  by_cases hsize : v.length = size
  · refine .inl ⟨ofNat (Octets.toNat v), by rw [read, if_pos hsize]; rfl, hsize, ?_⟩
    intro n _ hnew
    have hlt : Octets.toNat v < 256 ^ size := hsize ▸ Octets.toNat_lt v
    have hoctets : Octets.bigEndian size (Octets.toNat v) = v := hsize ▸ Octets.bigEndian_toNat v
    rw [hback _ hlt, hoctets]
    exact Message.stores_add hnew
  · exact .inr ⟨by rw [read, if_neg hsize]; rfl, hsize⟩

/-- A text takes the octets that encode it, within the limit of its type. -/
theorem Text.lossless_getFrom :
    Lossless m t v (getFrom m t) Text.addTo (Octets.IsUtf8 v)
      (fun err => ¬ Octets.IsUtf8 v ∧ err = .badText t) := by
  have hgot : getFrom m t = read t v := by
    rw [getFrom, h]
    rfl
  rw [hgot]
  apply Lossless.of_unless
  rcases htext : Octets.text? v with - | s
  · exact .inr ⟨by rw [read, htext], Octets.text?_eq_none_iff.mp htext⟩
  · have hutf8 : Octets.IsUtf8 v := by
      by_contra hnot
      rw [Octets.text?_eq_none_iff.mpr hnot] at htext
      cases htext
    obtain rfl := Octets.text?_eq_some_iff.mp htext
    exact .inl ⟨⟨t, s⟩, by rw [read, htext], hutf8, fun n _ hnew => stores_addTo hnew⟩

end Found

theorem TypeList.lossless_getFrom (h : m.get .unknownAttributes = .ok v) :
    Lossless m .unknownAttributes v (getFrom m) TypeList.addTo (v.length % 2 = 0)
      (fun err => ¬ v.length % 2 = 0 ∧ err = .oddTypeList) := by
  have hgot : getFrom m = read v := by
    rw [getFrom, h]
    rfl
  rw [hgot]
  apply Lossless.of_unless
  rcases htypes : readTypes v with - | types
  · have hodd := readTypes_eq_none_iff.mp htypes
    exact .inr ⟨by rw [read, htypes], by omega⟩
  · have heven : v.length % 2 = 0 := by
      by_contra hnot
      rw [readTypes_eq_none_iff.mpr (by omega)] at htypes
      cases htypes
    obtain rfl := readTypes_eq_some_iff.mp htypes
    exact .inl ⟨⟨types⟩, by rw [read, htypes], heven, fun n _ hnew => Message.stores_add hnew⟩

end Lossless

/-- **Getters accept exactly the values of their kind, and lose nothing.**  Let
`v` be the value of the first attribute of type `t` in a message, one that was
decoded or any other.  As an address, plain or masked, it is accepted exactly
if it has eight octets that begin with 0 and 1, or twenty that begin with 0 and
2; otherwise it is too short, of an unknown family or of the wrong size, and
the first of these that applies is reported.  A list of types is accepted with
an even number of octets, a priority with four, a tie-breaker with eight, and a
text if it is UTF-8.  Whatever a getter returns, to put it under the same type
into a message with the same id that lacks the type is to append `v`; only its
size can be a reason to refuse it. -/
theorem lossless_of_get {m : Message} {t : AttributeType} {v : List UInt8}
    (h : m.get t = .ok v) :
    Lossless m t v (Endpoint.getFrom m t) (fun e => e.addTo t)
      (Endpoint.Fits v) (Endpoint.Misfit v) ∧
    Lossless m t v (Endpoint.getMaskedFrom m t) (fun e => e.addMaskedTo t)
      (Endpoint.Fits v) (Endpoint.Misfit v) ∧
    (t = .unknownAttributes →
      Lossless m t v (TypeList.getFrom m) TypeList.addTo (v.length % 2 = 0)
        (fun err => ¬ v.length % 2 = 0 ∧ err = .oddTypeList)) ∧
    (t = .priority →
      Lossless m t v (Number.priority m) Number.addPriority (v.length = 4)
        (fun err => ¬ v.length = 4 ∧ err = .sizeMismatch t v.length 4)) ∧
    Lossless m t v (Number.tieBreaker m t) (Number.addTieBreaker t) (v.length = 8)
      (fun err => ¬ v.length = 8 ∧ err = .sizeMismatch t v.length 8) ∧
    Lossless m t v (Text.getFrom m t) Text.addTo (Octets.IsUtf8 v)
      (fun err => ¬ Octets.IsUtf8 v ∧ err = .badText t) := by
  have hword (k : Nat) (hk : k < 256 ^ 4) : (UInt32.ofNat k).toNat = k :=
    UInt32.toNat_ofNat_of_lt' hk
  have hlong (k : Nat) (hk : k < 256 ^ 8) : (UInt64.ofNat k).toNat = k :=
    UInt64.toNat_ofNat_of_lt' hk
  refine ⟨Endpoint.lossless_getFrom h, Endpoint.lossless_getMaskedFrom h, ?_, ?_,
    Number.lossless_getFrom h hlong, Text.lossless_getFrom h⟩
  · rintro rfl
    exact TypeList.lossless_getFrom h
  · rintro rfl
    exact Number.lossless_getFrom h hword

/-- An old sender's masked address is read, and becomes the same octets in
another message behind a name; an address of a third family is refused. -/
theorem lossless_of_get_alias :
    let v : List UInt8 := [0, 1, 0x3E, 0x82, 0xE1, 0xBA, 0xA5, 0x26]
    let bs : List UInt8 := [0x01, 0x01, 0, 24, 0x21, 0x12, 0xA4, 0x42] ++ List.replicate 12 0 ++
      ([0x80, 0x20, 0, 8] ++ v ++ [0x80, 0x23, 0, 8, 0, 3, 0, 80, 1, 2, 3, 4])
    let e : Endpoint := ⟨⟨.v4, [192, 168, 1, 100], rfl⟩, 8080⟩
    let n := Message.after [.add .username [0x75]] (.new ⟨⟨1⟩, .request⟩ .zero)
    ∃ m, Message.decode bs = .ok m ∧ m.get .xorMappedAddress = .ok v ∧
      Endpoint.getMaskedFrom m .xorMappedAddress = .ok e ∧
      (∃ n', e.addMaskedTo .xorMappedAddress n = (.ok (), n') ∧
        n'.get .xorMappedAddress = .ok v) ∧
      Endpoint.getFrom m .alternateServer = .error (.badFamily 3) := by
  intro v bs e n
  let first : Segment := ⟨0x8020, v, [], by decide, by decide⟩
  let second : Segment := ⟨0x8023, [0, 3, 0, 80, 1, 2, 3, 4], [], by decide, by decide⟩
  let m : Message := ⟨⟨.ofWord 0x0101, 24, .zero, [first.asRead, second.asRead]⟩, bs⟩
  have hd : Message.decode bs = .ok m :=
    Message.decode_eq_ok_iff.mpr ⟨0x0101, .zero, [first, second], by decide, by decide, rfl⟩
  have hfirst : m.get .xorMappedAddress = .ok v := rfl
  have hsecond : m.get .alternateServer = .ok [0, 3, 0, 80, 1, 2, 3, 4] := rfl
  have he : Endpoint.getMaskedFrom m .xorMappedAddress = .ok e := by decide +kernel
  have hput : (e.addMaskedTo .xorMappedAddress n).1.isOk = true := by decide +kernel
  refine ⟨m, hd, hfirst, he, ?_, ?_⟩
  · obtain ⟨n', hn', -, hget⟩ | ⟨max, hrefused, -⟩ :=
      (lossless_of_get hfirst).2.1.stored e he n rfl (by decide)
    · exact ⟨n', hn', hget⟩
    · rw [hrefused] at hput
      cases hput
  · refine ((lossless_of_get hsecond).1.refused _).mpr ?_
    exact .badFamily 3 (by decide) (by decide) (by decide)

end Stun
