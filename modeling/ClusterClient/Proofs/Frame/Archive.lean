import ClusterClient.Frame.Stream
import ClusterClient.Proofs.Frame.Places
/-!
# Archives

An archive within the limit is read back as its envelope. Conversely what is read from any bytes was
found before the root, so that the archive of the same envelope is no longer than those bytes.
-/

namespace ClusterClient.Frame

variable {bytes : List UInt8} {place root : Nat}

/-! ## Texts and values -/

@[simp]
theorem length_zeros (n : Nat) : (zeros n).length = n :=
  List.length_replicate

theorem length_textBytes (s : String) : (textBytes s).length = s.utf8ByteSize := by
  unfold textBytes
  show s.toUTF8.data.toList.length = s.toUTF8.data.size
  exact Array.length_toList

theorem text?_eq_some_iff {s : String} : text? bytes = some s ↔ bytes = textBytes s := by
  unfold text? String.fromUTF8? textBytes
  constructor
  · intro h
    split at h
    · cases h
      rfl
    · cases h
  · rintro rfl
    have hvalid : (⟨s.toUTF8.data.toList.toArray⟩ : ByteArray).IsValidUTF8 := s.isValidUTF8
    rw [dif_pos hvalid]
    rfl

@[simp]
theorem length_textField (place : Nat) (s : String) : (textField place s).length = 8 := by
  unfold textField
  by_cases hsize : s.utf8ByteSize ≤ inlineLimit
  · rw [if_pos hsize, List.length_append, List.length_append, length_textBytes, length_zeros]
    show s.utf8ByteSize + (inlineLimit - s.utf8ByteSize) + 1 = 8
    unfold inlineLimit at *
    omega
  · rw [if_neg hsize, List.length_append, length_littleEndian, length_offsetBytes]

-- A run that starts the archive is pointed at by the offset that leads back there.
theorem pointed?_start {length : Nat} (hlength : length ≤ root) :
    pointed? bytes root place (-(place : Int)) length = some (slice bytes 0 length) := by
  unfold pointed?
  have hstart : (place : Int) + -(place : Int) = 0 := by omega
  simp only [hstart]
  rw [if_pos (by omega)]
  rfl

theorem length_of_pointed? {offset : Int} {length : Nat} {found : List UInt8}
    (h : pointed? bytes root place offset length = some found) : found.length ≤ root := by
  unfold pointed? at h
  simp only at h
  split at h
  · rename_i hbounds
    cases h
    have hle := length_slice_le bytes ((place : Int) + offset).toNat length
    omega
  · cases h

theorem readText?_of_stands {s : String} (hfield : Stands bytes place (textField place s))
    (houtside : Stands bytes 0 (textOutside s)) (hfits : (textOutside s).length ≤ root)
    (hroot : root < place) (hmax : place ≤ 0x80000000) : readText? bytes root place = some s := by
  unfold textField at hfield
  unfold textOutside at houtside hfits
  unfold readText?
  by_cases hsize : s.utf8ByteSize ≤ inlineLimit
  · have hle : s.utf8ByteSize ≤ 7 := hsize
    rw [if_pos hsize, stands_append_iff, stands_append_iff] at hfield
    obtain ⟨⟨htext, -⟩, hlast⟩ := hfield
    rw [List.length_append, length_textBytes, length_zeros] at hlast
    have hplace : s.utf8ByteSize + (inlineLimit - s.utf8ByteSize) = 7 := by
      unfold inlineLimit
      omega
    rw [hplace] at hlast
    have hbyte : (byteAt bytes (place + 7)).toNat = s.utf8ByteSize := by
      rw [byteAt_of_stands hlast, UInt8.toNat_ofNat']
      omega
    simp only [hbyte]
    rw [if_pos (by omega), if_pos hsize, slice_of_stands htext (length_textBytes s)]
    exact text?_eq_some_iff.mpr rfl
  · rw [if_neg hsize, length_textBytes] at hfits
    rw [if_neg hsize] at houtside
    rw [if_neg hsize, stands_append_iff, length_littleEndian] at hfield
    obtain ⟨hlength, hoffset⟩ := hfield
    have hbyte : 128 ≤ (byteAt bytes (place + 7)).toNat :=
      stands_offsetBytes_neg hoffset (by omega) hmax
    have hbase : 1 <<< (8 * 4) = 0x100000000 := by decide
    have hnumber : numberAt bytes place 4 = s.utf8ByteSize :=
      numberAt_of_stands hlength (by omega)
    rw [if_neg (by omega), slice_of_stands hoffset (length_offsetBytes _),
      ofOffsetBytes_offsetBytes (by omega) (by omega), hnumber, pointed?_start hfits,
      slice_of_stands houtside (length_textBytes s)]
    exact text?_eq_some_iff.mpr rfl

theorem readValue?_of_stands {value : List UInt8}
    (hoffset : Stands bytes place (offsetBytes (-(place : Int))))
    (hlength : Stands bytes (place + 4) (littleEndian 4 value.length))
    (houtside : Stands bytes 0 value) (hfits : value.length ≤ root) (hroot : root < place)
    (hmax : place ≤ 0x80000000) : readValue? bytes root place = some value := by
  unfold readValue?
  have hbase : 1 <<< (8 * 4) = 0x100000000 := by decide
  have hnumber : numberAt bytes (place + 4) 4 = value.length :=
    numberAt_of_stands hlength (by omega)
  rw [slice_of_stands hoffset (length_offsetBytes _),
    ofOffsetBytes_offsetBytes (by omega) (by omega), hnumber, pointed?_start hfits,
    slice_of_stands houtside rfl]

/-! ## Codes -/

theorem keyState?_keyStateCode (state : KeyState) :
    keyState? (keyStateCode state) = some state := by
  cases state <;> decide

theorem getStatus?_getStatusCode (status : GetStatus) :
    getStatus? (getStatusCode status) = some status := by
  cases status <;> decide

/-! ## Messages -/

theorem length_messageBytes (root : Nat) (m : Message) :
    (messageBytes root m).length = messageSize := by
  cases m with
  | getConfig => rfl
  | config descriptor =>
    cases descriptor with
    | none => rfl
    | some s => simp [messageBytes, messageSize]
  | observe key cas partition => simp [messageBytes, messageSize]
  | observeResponse key cas state => simp [messageBytes, messageSize]
  | get key partition => simp [messageBytes, messageSize]
  | replicaGet key partition replicaIndex => simp [messageBytes, messageSize]
  | getResponse status cas value =>
    cases value with
    | none => simp [messageBytes, messageSize]
    | some value => simp [messageBytes, messageSize]

/-! ### Fields of a message -/

theorem word_of_stands {n : UInt32} (h : Stands bytes place (littleEndian 4 n.toNat)) :
    UInt32.ofNat (numberAt bytes place 4) = n := by
  rw [numberAt_of_stands h n.toNat_lt, UInt32.ofNat_toNat]

theorem long_of_stands {n : UInt64} (h : Stands bytes place (littleEndian 8 n.toNat)) :
    UInt64.ofNat (numberAt bytes place 8) = n := by
  rw [numberAt_of_stands h n.toNat_lt, UInt64.ofNat_toNat]

theorem optional?_of_none {α : Type} {read : Option α} (h : byteAt bytes place = 0) :
    optional? bytes place read = some none := by
  unfold optional?
  simp only [h, if_true]

theorem optional?_of_some {α : Type} {read : Option α} {a : α} (h : byteAt bytes place = 1)
    (hread : read = some a) : optional? bytes place read = some (some a) := by
  unfold optional?
  rw [hread]
  simp only [h]
  rfl

/-- A message that stands at the root is read back, if what it points at starts the archive. -/
theorem readMessage?_of_stands {m : Message} (hmessage : Stands bytes root (messageBytes root m))
    (houtside : Stands bytes 0 (outside m)) (hfits : (outside m).length ≤ root)
    (hmax : root ≤ maxLength) : readMessage? bytes root = some m := by
  unfold maxLength at hmax
  cases m with
  | getConfig =>
    have htag : byteAt bytes root = 0 := byteAt_of_stands hmessage
    unfold readMessage?
    simp only [htag, if_true]
  | config descriptor =>
    cases descriptor with
    | none =>
      have hparts : messageBytes root (.config none) = [1, 0, 0, 0] ++ 0 :: zeros 27 := rfl
      rw [hparts, stands_append_iff] at hmessage
      have htag : byteAt bytes root = 1 := byteAt_of_stands hmessage.1
      have hsome : byteAt bytes (root + 4) = 0 := byteAt_of_stands hmessage.2
      unfold readMessage?
      simp only [htag, optional?_of_none hsome]
      rfl
    | some s =>
      have hparts : messageBytes root (.config (some s)) =
          [1, 0, 0, 0] ++ [1, 0, 0, 0] ++ textField (root + 8) s ++ zeros 16 := rfl
      simp only [hparts, stands_append_iff, List.length_append, List.length_cons, List.length_nil,
        Nat.reduceAdd] at hmessage
      obtain ⟨⟨⟨htag, hsome⟩, htext⟩, -⟩ := hmessage
      have hread := readText?_of_stands htext houtside hfits (by omega) (by omega)
      unfold readMessage?
      simp only [byteAt_of_stands htag]
      rw [optional?_of_some (byteAt_of_stands hsome) hread]
      rfl
  | observe key cas partition =>
    simp only [messageBytes, stands_append_iff, List.length_append, length_textField, length_zeros,
      length_littleEndian, List.length_cons, List.length_nil, Nat.reduceAdd] at hmessage
    obtain ⟨⟨⟨⟨⟨htag, htext⟩, -⟩, hcas⟩, hpartition⟩, -⟩ := hmessage
    have hread := readText?_of_stands htext houtside hfits (by omega) (by omega)
    unfold readMessage?
    simp only [byteAt_of_stands htag, hread, long_of_stands hcas, word_of_stands hpartition]
    rfl
  | observeResponse key cas state =>
    simp only [messageBytes, stands_append_iff, List.length_append, length_textField, length_zeros,
      length_littleEndian, List.length_cons, List.length_nil, Nat.reduceAdd] at hmessage
    obtain ⟨⟨⟨⟨htag, htext⟩, -⟩, hcas⟩, hstate⟩ := hmessage
    have hread := readText?_of_stands htext houtside hfits (by omega) (by omega)
    unfold readMessage?
    simp only [byteAt_of_stands htag, hread, long_of_stands hcas, byteAt_of_stands hstate,
      keyState?_keyStateCode]
    rfl
  | get key partition =>
    simp only [messageBytes, stands_append_iff, List.length_append, length_textField,
      length_littleEndian, List.length_cons, List.length_nil, Nat.reduceAdd] at hmessage
    obtain ⟨⟨⟨htag, htext⟩, hpartition⟩, -⟩ := hmessage
    have hread := readText?_of_stands htext houtside hfits (by omega) (by omega)
    unfold readMessage?
    simp only [byteAt_of_stands htag, hread, word_of_stands hpartition]
    rfl
  | replicaGet key partition replicaIndex =>
    simp only [messageBytes, stands_append_iff, List.length_append, length_textField,
      length_littleEndian, List.length_cons, List.length_nil, Nat.reduceAdd] at hmessage
    obtain ⟨⟨⟨⟨htag, htext⟩, hpartition⟩, hindex⟩, -⟩ := hmessage
    have hread := readText?_of_stands htext houtside hfits (by omega) (by omega)
    unfold readMessage?
    simp only [byteAt_of_stands htag, hread, word_of_stands hpartition, word_of_stands hindex]
    rfl
  | getResponse status cas value =>
    cases value with
    | none =>
      have hparts : messageBytes root (.getResponse status cas none) =
          [6] ++ [getStatusCode status] ++ zeros 6 ++ littleEndian 8 cas.toNat ++
            0 :: zeros 15 := rfl
      simp only [hparts, stands_append_iff, List.length_append, length_zeros, length_littleEndian,
        List.length_cons, List.length_nil, Nat.reduceAdd] at hmessage
      obtain ⟨⟨⟨⟨htag, hstatus⟩, -⟩, hcas⟩, hsome⟩ := hmessage
      unfold readMessage?
      simp only [byteAt_of_stands htag, byteAt_of_stands hstatus, getStatus?_getStatusCode,
        long_of_stands hcas, optional?_of_none (byteAt_of_stands hsome)]
      rfl
    | some value =>
      have hparts : messageBytes root (.getResponse status cas (some value)) =
          [6] ++ [getStatusCode status] ++ zeros 6 ++ littleEndian 8 cas.toNat ++ [1, 0, 0, 0] ++
            offsetBytes (-((root + 20 : Nat) : Int)) ++ littleEndian 4 value.length ++ zeros 4 := by
        simp only [messageBytes, List.append_assoc, List.cons_append, List.nil_append]
      simp only [hparts, stands_append_iff, List.length_append, length_zeros, length_littleEndian,
        length_offsetBytes, List.length_cons, List.length_nil, Nat.reduceAdd] at hmessage
      obtain ⟨⟨⟨⟨⟨⟨⟨htag, hstatus⟩, -⟩, hcas⟩, hsome⟩, hoffset⟩, hlength⟩, -⟩ := hmessage
      have hread := readValue?_of_stands hoffset hlength houtside hfits (by omega) (by omega)
      unfold readMessage?
      simp only [byteAt_of_stands htag, byteAt_of_stands hstatus, getStatus?_getStatusCode,
        long_of_stands hcas]
      rw [optional?_of_some (byteAt_of_stands hsome) hread]
      rfl

/-! ## Archives -/

/-- The bytes of an archive before its root. -/
def beforeRoot (m : Message) : List UInt8 := outside m ++ padding (outside m).length

theorem length_beforeRoot (m : Message) :
    (beforeRoot m).length = (outside m).length + (8 - (outside m).length % 8) % 8 := by
  unfold beforeRoot padding
  rw [List.length_append, length_zeros]

theorem archive_eq (e : Envelope) :
    archive e = beforeRoot e.message ++
      (messageBytes (beforeRoot e.message).length e.message ++ e.id.bytes.toList) := by
  unfold archive beforeRoot
  simp only [List.append_assoc]

theorem length_archive (e : Envelope) :
    (archive e).length = (beforeRoot e.message).length + rootSize := by
  rw [archive_eq, List.length_append, List.length_append, length_messageBytes, Vector.length_toList]
  rfl

theorem requestId?_toList (id : RequestId) : requestId? id.bytes.toList = some id := by
  unfold requestId?
  rw [dif_pos Vector.length_toList]
  congr 1

theorem readArchive?_archive {e : Envelope} (h : (archive e).length ≤ maxLength) :
    readArchive? (archive e) = some e := by
  have hlength : (archive e).length = (beforeRoot e.message).length + 48 := length_archive e
  have hbefore := length_beforeRoot e.message
  have hroot : (archive e).length - rootSize = (beforeRoot e.message).length := by
    unfold rootSize
    omega
  have hmessage : Stands (archive e) (beforeRoot e.message).length
      (messageBytes (beforeRoot e.message).length e.message ++ e.id.bytes.toList) := by
    rw [archive_eq]
    exact stands_of_append _ _
  have houtside : Stands (archive e) 0 (outside e.message) := by
    rw [archive_eq, beforeRoot, List.append_assoc]
    exact List.prefix_append _ _
  have hid : (archive e).drop ((beforeRoot e.message).length + messageSize) =
      e.id.bytes.toList := by
    rw [archive_eq, ← length_messageBytes (beforeRoot e.message).length e.message,
      ← List.drop_drop, List.drop_left, List.drop_left]
  rw [stands_append_iff] at hmessage
  have hread := readMessage?_of_stands hmessage.1 houtside (by omega) (by omega)
  unfold readArchive?
  rw [if_neg (by unfold rootSize; omega)]
  simp only [hroot, hread, hid, requestId?_toList]
  rfl

/-! ## What is read stands before the root -/

theorem length_textOutside_le {s : String} (h : readText? bytes root place = some s) :
    (textOutside s).length ≤ root := by
  unfold readText? at h
  unfold textOutside
  by_cases hsize : s.utf8ByteSize ≤ inlineLimit
  · rw [if_pos hsize]
    exact Nat.zero_le _
  · rw [if_neg hsize, length_textBytes]
    simp only at h
    split at h
    · split at h
      · rename_i hlimit
        have htext := congrArg List.length (text?_eq_some_iff.mp h)
        rw [length_textBytes] at htext
        have hslice := length_slice_le bytes place (byteAt bytes (place + 7)).toNat
        omega
      · cases h
    · obtain ⟨found, hfound, htext⟩ := Option.bind_eq_some_iff.mp h
      have hle := length_of_pointed? hfound
      rw [text?_eq_some_iff.mp htext, length_textBytes] at hle
      exact hle

theorem eq_none_or_of_optional? {α : Type} {read : Option α} {found : Option α}
    (h : optional? bytes place read = some found) : found = none ∨ read = found := by
  unfold optional? at h
  simp only at h
  split at h
  · cases h
    exact .inl rfl
  · split at h
    · obtain ⟨a, hread, hfound⟩ := Option.map_eq_some_iff.mp h
      exact .inr (hread.trans hfound)
    · cases h

/-- The text of a message is as `T` says of the place of its field, and its value as `V` says, where
the message has them and stands at a root. -/
def EachField (T : Nat → String → Prop) (V : Nat → List UInt8 → Prop) (root : Nat) :
    Message → Prop
  | .getConfig | .config none | .getResponse _ _ none => True
  | .config (some s) => T (root + 8) s
  | .observe key _ _ | .observeResponse key _ _ | .get key _ | .replicaGet key _ _ =>
    T (root + 4) key
  | .getResponse _ _ (some value) => V (root + 20) value

theorem EachField.imp {T T' : Nat → String → Prop} {V V' : Nat → List UInt8 → Prop} {m : Message}
    (h : EachField T V root m)
    (hT : ∀ place s, place ≤ root + 8 → T place s → T' place s)
    (hV : ∀ value, V (root + 20) value → V' (root + 20) value) : EachField T' V' root m := by
  cases m with
  | getConfig => trivial
  | config descriptor =>
    cases descriptor with
    | none => trivial
    | some s => exact hT _ _ (by omega) h
  | observe key cas partition => exact hT _ _ (by omega) h
  | observeResponse key cas state => exact hT _ _ (by omega) h
  | get key partition => exact hT _ _ (by omega) h
  | replicaGet key partition replicaIndex => exact hT _ _ (by omega) h
  | getResponse status cas value =>
    cases value with
    | none => trivial
    | some value => exact hV _ h

-- What is read as a message has its text or its value from the field for it.
theorem eachField_of_readMessage? {m : Message} (h : readMessage? bytes root = some m) :
    EachField (fun place s => readText? bytes root place = some s)
      (fun place value => readValue? bytes root place = some value) root m := by
  unfold readMessage? at h
  simp only at h
  split at h
  · cases h
    trivial
  split at h
  · obtain ⟨descriptor, hread, rfl⟩ := Option.map_eq_some_iff.mp h
    rcases eq_none_or_of_optional? hread with rfl | hread
    · trivial
    · cases descriptor with
      | none => trivial
      | some s => exact hread
  split at h
  · obtain ⟨key, hread, rfl⟩ := Option.map_eq_some_iff.mp h
    exact hread
  split at h
  · obtain ⟨key, hread, hrest⟩ := Option.bind_eq_some_iff.mp h
    obtain ⟨state, -, hm⟩ := Option.bind_eq_some_iff.mp hrest
    cases hm
    exact hread
  split at h
  · obtain ⟨key, hread, rfl⟩ := Option.map_eq_some_iff.mp h
    exact hread
  split at h
  · obtain ⟨key, hread, rfl⟩ := Option.map_eq_some_iff.mp h
    exact hread
  split at h
  · obtain ⟨status, -, hrest⟩ := Option.bind_eq_some_iff.mp h
    obtain ⟨value, hread, hm⟩ := Option.bind_eq_some_iff.mp hrest
    cases hm
    rcases eq_none_or_of_optional? hread with rfl | hread
    · trivial
    · cases value with
      | none => trivial
      | some value => exact hread
  · cases h

theorem length_outside_le {m : Message} (h : readMessage? bytes root = some m) :
    (outside m).length ≤ root := by
  have hfields : EachField (fun _ s => (textOutside s).length ≤ root)
      (fun _ value => value.length ≤ root) root m :=
    (eachField_of_readMessage? h).imp (fun _ _ _ hs => length_textOutside_le hs)
      fun _ hvalue => length_of_pointed? hvalue
  cases m with
  | getConfig => exact Nat.zero_le _
  | config descriptor =>
    cases descriptor with
    | none => exact Nat.zero_le _
    | some s => exact hfields
  | getResponse status cas value =>
    cases value with
    | none => exact Nat.zero_le _
    | some value => exact hfields
  | _ => exact hfields

/-- Whatever bytes an envelope was read from, its archive is no longer. -/
theorem length_archive_le {e : Envelope} (h : readArchive? bytes = some e) :
    (archive e).length ≤ bytes.length := by
  unfold readArchive? at h
  split at h
  · cases h
  · rename_i hsize
    obtain ⟨message, hmessage, hrest⟩ := Option.bind_eq_some_iff.mp h
    obtain ⟨id, -, he⟩ := Option.bind_eq_some_iff.mp hrest
    cases he
    have hle := length_outside_le hmessage
    have hbefore := length_beforeRoot message
    rw [length_archive]
    unfold rootSize at *
    show (beforeRoot message).length + 48 ≤ bytes.length
    omega

end ClusterClient.Frame
