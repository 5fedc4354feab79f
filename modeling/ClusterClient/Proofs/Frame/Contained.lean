import ClusterClient.Proofs.Frame.Stream
/-!
# Frames of any bytes

Whatever bytes a peer sends, a frame takes its own bytes off the stream and is answered by its own
payload: a payload that cannot be decoded is passed over as a whole, and what is decoded stands in
the payload, in the length and at the place that its field tells.
-/

namespace ClusterClient.Frame

variable {stream payload rest : List UInt8} {place root : Nat}

/-! ## What is stored in a payload -/

/-- The field at a place of a payload holds a text: in its own bytes, with the length in the last of
them, or before the root, in the length and at the place that it tells. -/
inductive HoldsText (payload : List UInt8) (root place : Nat) (s : String) : Prop where
  | inField (hsize : s.utf8ByteSize ≤ inlineLimit)
      (hlength : (byteAt payload (place + 7)).toNat = s.utf8ByteSize)
      (hstands : Stands payload place (textBytes s)) : HoldsText payload root place s
  | outside {start : Nat}
      (hstart : (place : Int) + ofOffsetBytes (slice payload (place + 4) 4) = start)
      (hlength : numberAt payload place 4 = s.utf8ByteSize)
      (hroot : start + s.utf8ByteSize ≤ root) (hstands : Stands payload start (textBytes s)) :
      HoldsText payload root place s

/-- The field at a place of a payload holds a value: before the root, in the length and at the place
that it tells. -/
inductive HoldsValue (payload : List UInt8) (root place : Nat) (value : List UInt8) : Prop where
  | outside {start : Nat}
      (hstart : (place : Int) + ofOffsetBytes (slice payload place 4) = start)
      (hlength : numberAt payload (place + 4) 4 = value.length)
      (hroot : start + value.length ≤ root) (hstands : Stands payload start value) :
      HoldsValue payload root place value

/-- The texts of a message as bytes, and its value. -/
def runs : Message → List (List UInt8)
  | .getConfig | .config none | .getResponse _ _ none => []
  | .config (some s) => [textBytes s]
  | .observe key _ _ | .observeResponse key _ _ | .get key _ | .replicaGet key _ _ =>
    [textBytes key]
  | .getResponse _ _ (some value) => [value]

theorem Stands.isInfix {run : List UInt8} (h : Stands payload place run) : run <:+: payload :=
  (List.IsPrefix.isInfix h).trans (List.drop_suffix place payload).isInfix

theorem HoldsText.isInfix {s : String} (h : HoldsText payload root place s) :
    textBytes s <:+: payload := by
  cases h with
  | inField _ _ hstands => exact hstands.isInfix
  | outside _ _ _ hstands => exact hstands.isInfix

theorem HoldsValue.isInfix {value : List UInt8} (h : HoldsValue payload root place value) :
    value <:+: payload := by
  cases h with
  | outside _ _ _ hstands => exact hstands.isInfix

theorem stands_slice (payload : List UInt8) (place length : Nat) :
    Stands payload place (slice payload place length) :=
  List.take_prefix _ _

theorem length_slice {length : Nat} (h : place + length ≤ payload.length) :
    (slice payload place length).length = length := by
  unfold slice
  rw [List.length_take, List.length_drop]
  omega

-- What is pointed at is not cut off: it has the length that is told.
theorem stands_of_pointed? {offset : Int} {length : Nat} {run : List UInt8}
    (hroot : root ≤ payload.length) (h : pointed? payload root place offset length = some run) :
    ∃ start : Nat, place + offset = start ∧ run.length = length ∧ start + length ≤ root ∧
      Stands payload start run := by
  unfold pointed? at h
  simp only at h
  split at h
  · rename_i hbounds
    cases h
    refine ⟨((place : Int) + offset).toNat, by omega, length_slice (by omega), by omega,
      stands_slice _ _ _⟩
  · cases h

theorem holdsText_of_readText? {s : String} (hplace : place + 8 ≤ payload.length)
    (hroot : root ≤ payload.length) (h : readText? payload root place = some s) :
    HoldsText payload root place s := by
  unfold readText? at h
  simp only at h
  split at h
  · split at h
    · rename_i hlimit
      have htext := text?_eq_some_iff.mp h
      have hle : (byteAt payload (place + 7)).toNat ≤ 7 := hlimit
      have hsize : (slice payload place (byteAt payload (place + 7)).toNat).length =
          (byteAt payload (place + 7)).toNat := length_slice (by omega)
      rw [htext, length_textBytes] at hsize
      exact .inField (by omega) hsize.symm (htext ▸ stands_slice _ _ _)
    · cases h
  · obtain ⟨run, hrun, htext⟩ := Option.bind_eq_some_iff.mp h
    obtain ⟨start, hstart, hlength, hbefore, hstands⟩ := stands_of_pointed? hroot hrun
    rw [text?_eq_some_iff.mp htext] at hlength hstands
    rw [length_textBytes] at hlength
    exact .outside hstart hlength.symm (by omega) hstands

theorem holdsValue_of_readValue? {value : List UInt8} (hroot : root ≤ payload.length)
    (h : readValue? payload root place = some value) : HoldsValue payload root place value := by
  obtain ⟨start, hstart, hlength, hbefore, hstands⟩ := stands_of_pointed? hroot h
  exact .outside hstart hlength.symm (by omega) hstands

/-- The text or the value of an envelope stands in a payload where the root at its end tells. -/
def HoldsAll (payload : List UInt8) (e : Envelope) : Prop :=
  let root := payload.length - rootSize
  EachField (HoldsText payload root) (HoldsValue payload root) root e.message

theorem holdsAll_of_readArchive? {e : Envelope} (h : readArchive? payload = some e) :
    HoldsAll payload e := by
  unfold readArchive? at h
  split at h
  · cases h
  · rename_i hsize
    obtain ⟨message, hmessage, hrest⟩ := Option.bind_eq_some_iff.mp h
    obtain ⟨id, -, he⟩ := Option.bind_eq_some_iff.mp hrest
    cases he
    have hroot : payload.length - rootSize + 48 ≤ payload.length := by
      unfold rootSize at *
      omega
    exact (eachField_of_readMessage? hmessage).imp
      (fun _ _ hplace hs => holdsText_of_readText? (by omega) (by omega) hs)
      fun _ hvalue => holdsValue_of_readValue? (by omega) hvalue

theorem HoldsAll.isInfix {e : Envelope} (h : HoldsAll payload e) :
    ∀ run ∈ runs e.message, run <:+: payload := by
  have hfields : EachField (fun _ s => textBytes s <:+: payload)
      (fun _ value => value <:+: payload) (payload.length - rootSize) e.message :=
    EachField.imp h (fun _ _ _ hs => hs.isInfix) fun _ hvalue => hvalue.isInfix
  intro run hrun
  obtain ⟨id, message⟩ := e
  cases message with
  | getConfig => cases hrun
  | config descriptor =>
    cases descriptor with
    | none => cases hrun
    | some s => exact List.mem_singleton.mp hrun ▸ hfields
  | getResponse status cas value =>
    cases value with
    | none => cases hrun
    | some value => exact List.mem_singleton.mp hrun ▸ hfields
  | _ => exact List.mem_singleton.mp hrun ▸ hfields

/-! ## One frame -/

section Frames

variable {header : List UInt8}

/-- No frame was read, and the stream is to blame. -/
def IsNetworkFailure (answer : Except ReadError Envelope) : Prop :=
  ∃ why detail, answer = .error why ∧ why.transport = .network detail

/-- No frame was read, and what stands in the stream is to blame. -/
def IsProtocolFailure (answer : Except ReadError Envelope) : Prop :=
  ∃ why detail, answer = .error why ∧ why.transport = .protocol detail

/-- The answer to a payload, whatever stands around it. -/
def decoded (payload : List UInt8) : Except ReadError Envelope :=
  match readArchive? payload with
  | some e => .ok e
  | none => .error .undecodable

theorem read_of_short (h : stream.length < 4) : read stream = (.error .cutLength, []) :=
  if_pos h

-- The first four bytes are the header, and what follows them is left to be looked at.
theorem read_append (hheader : header.length = 4) (rest : List UInt8) :
    read (header ++ rest) =
      if maxLength < ofBigEndian header then (.error (.tooLong (ofBigEndian header)), rest)
      else if rest.length < ofBigEndian header then (.error .cutBody, [])
      else (decoded (rest.take (ofBigEndian header)), rest.drop (ofBigEndian header)) := by
  have htake : (header ++ rest).take 4 = header := by rw [← hheader, List.take_left]
  have hdrop : (header ++ rest).drop 4 = rest := by rw [← hheader, List.drop_left]
  unfold read
  rw [if_neg (by rw [List.length_append]; omega), htake, hdrop]
  unfold decoded
  simp only
  split
  · rfl
  split
  · rfl
  cases readArchive? (rest.take (ofBigEndian header)) <;> rfl

theorem read_of_long (hheader : header.length = 4) (hlong : maxLength < ofBigEndian header)
    (rest : List UInt8) :
    read (header ++ rest) = (.error (.tooLong (ofBigEndian header)), rest) := by
  rw [read_append hheader, if_pos hlong]

theorem read_of_cut (hheader : header.length = 4) (hlimit : ofBigEndian header ≤ maxLength)
    (hcut : rest.length < ofBigEndian header) : read (header ++ rest) = (.error .cutBody, []) := by
  rw [read_append hheader, if_neg (by omega), if_pos hcut]

theorem read_of_whole (hheader : header.length = 4) (hlimit : ofBigEndian header ≤ maxLength)
    (hpayload : payload.length = ofBigEndian header) (rest : List UInt8) :
    read (header ++ payload ++ rest) = (decoded payload, rest) := by
  rw [List.append_assoc, read_append hheader, if_neg (by omega),
    if_neg (by rw [List.length_append]; omega), ← hpayload, List.take_left, List.drop_left]

/-- What a stream starts with: less than a header, a header that tells too great a length, a frame
that is cut off, or a whole frame. -/
inductive Starts : List UInt8 → Prop where
  | short {stream : List UInt8} (h : stream.length < 4) : Starts stream
  | long {header rest : List UInt8} (hheader : header.length = 4)
      (hlong : maxLength < ofBigEndian header) : Starts (header ++ rest)
  | cut {header rest : List UInt8} (hheader : header.length = 4)
      (hlimit : ofBigEndian header ≤ maxLength) (hcut : rest.length < ofBigEndian header) :
      Starts (header ++ rest)
  | whole {header payload rest : List UInt8} (hheader : header.length = 4)
      (hlimit : ofBigEndian header ≤ maxLength) (hpayload : payload.length = ofBigEndian header) :
      Starts (header ++ payload ++ rest)

theorem starts (stream : List UInt8) : Starts stream := by
  by_cases hshort : stream.length < 4
  · exact .short hshort
  have hheader : (stream.take 4).length = 4 := by rw [List.length_take]; omega
  rw [← List.take_append_drop 4 stream]
  generalize stream.take 4 = header at hheader ⊢
  generalize stream.drop 4 = rest
  by_cases hlong : maxLength < ofBigEndian header
  · exact .long hheader hlong
  by_cases hcut : rest.length < ofBigEndian header
  · exact .cut hheader (by omega) hcut
  · rw [← List.take_append_drop (ofBigEndian header) rest, ← List.append_assoc]
    exact .whole hheader (by omega) (by rw [List.length_take]; omega)

theorem decoded_cases (payload : List UInt8) :
    IsProtocolFailure (decoded payload) ∨
      ∃ e, decoded payload = .ok e ∧ readArchive? payload = some e := by
  unfold decoded
  cases readArchive? payload with
  | none => exact .inl ⟨_, _, rfl, rfl⟩
  | some e => exact .inr ⟨e, rfl, rfl⟩

-- Only the end of the stream makes an answer depend on what would follow.
theorem read_append_of_not_network (h : ¬ IsNetworkFailure (read stream).1) :
    ∃ consumed, stream = consumed ++ (read stream).2 ∧
      ∀ other, read (consumed ++ other) = ((read stream).1, other) := by
  cases starts stream with
  | short hshort =>
    rw [read_of_short hshort] at h
    exact absurd ⟨_, _, rfl, rfl⟩ h
  | cut hheader hlimit hcut =>
    rw [read_of_cut hheader hlimit hcut] at h
    exact absurd ⟨_, _, rfl, rfl⟩ h
  | @long header rest hheader hlong =>
    rw [read_of_long hheader hlong]
    exact ⟨header, rfl, read_of_long hheader hlong⟩
  | @whole header payload rest hheader hlimit hpayload =>
    rw [read_of_whole hheader hlimit hpayload]
    exact ⟨header ++ payload, rfl, read_of_whole hheader hlimit hpayload⟩

theorem rootSize_le_of_readArchive? {e : Envelope} (h : readArchive? payload = some e) :
    rootSize ≤ payload.length := by
  unfold readArchive? at h
  split at h
  · cases h
  · omega

-- An envelope takes a header and a root at least.
theorem length_of_read_ok {e : Envelope} (h : read stream = (.ok e, rest)) :
    52 + rest.length ≤ stream.length := by
  obtain ⟨header, payload, rfl, hheader, -, -, hread⟩ := read_eq_ok_iff.mp h
  have hroot := rootSize_le_of_readArchive? hread
  unfold rootSize at hroot
  rw [List.length_append, List.length_append]
  omega

end Frames

/-! ## Several frames -/

/-- Reading off a stream again and again gives some answers, and leaves the rest. -/
inductive Answers : List UInt8 → List (Except ReadError Envelope) → List UInt8 → Prop where
  | nil (stream : List UInt8) : Answers stream [] stream
  | cons {stream later rest : List UInt8} {answer : Except ReadError Envelope}
      {answers : List (Except ReadError Envelope)} (head : read stream = (answer, later))
      (tail : Answers later answers rest) : Answers stream (answer :: answers) rest

/-- A payload behind its length. -/
def framed (payload : List UInt8) : List UInt8 := bigEndian 4 payload.length ++ payload

theorem read_framed (h : payload.length ≤ maxLength) (rest : List UInt8) :
    read (framed payload ++ rest) = (decoded payload, rest) := by
  have hmax : maxLength < 1 <<< (8 * 4) := by decide
  have hlength : ofBigEndian (bigEndian 4 payload.length) = payload.length :=
    ofBigEndian_bigEndian (by omega)
  unfold framed
  exact read_of_whole (length_bigEndian 4 _) (by omega) hlength.symm rest

-- Each payload is answered by itself, whether it can be decoded or not.
theorem answers_framed (payloads : List (List UInt8))
    (h : ∀ payload ∈ payloads, payload.length ≤ maxLength) (rest : List UInt8) :
    Answers ((payloads.map framed).flatten ++ rest) (payloads.map decoded) rest := by
  induction payloads with
  | nil => exact .nil rest
  | cons payload payloads ih =>
    rw [List.forall_mem_cons] at h
    rw [List.map_cons, List.flatten_cons, List.append_assoc]
    exact .cons (read_framed h.1 _) (ih h.2)

-- Reading ends: every envelope takes its bytes, of which there are so many.
theorem exists_failure (stream : List UInt8) :
    ∃ (es : List Envelope) (rest : List UInt8) (why : ReadError),
      Answers stream (es.map .ok) rest ∧ (read rest).1 = .error why ∧
        52 * es.length + rest.length ≤ stream.length := by
  cases hread : read stream with
  | mk answer later =>
    cases answer with
    | error why =>
      refine ⟨[], stream, why, .nil stream, by rw [hread], ?_⟩
      rw [List.length_nil]
      omega
    | ok e =>
      have hlength := length_of_read_ok hread
      obtain ⟨es, rest, why, hanswers, hwhy, hle⟩ := exists_failure later
      refine ⟨e :: es, rest, why, .cons hread hanswers, hwhy, ?_⟩
      rw [List.length_cons]
      omega
termination_by stream.length

/-- Reading a frame off any stream. A stream of less than four bytes is used up, and so is one that
ends inside a payload: failures of the network. A length over the limit takes its four bytes and no
others, whatever follows: a failure of the protocol. Any other frame takes its header and its
payload, and its answer is a failure of the protocol or an envelope all of whose text or value is
stored in the payload. Unless the stream ends, other bytes behind it change nothing. So frames that
stand one after another are answered each by its own payload, and reading on comes to a failure. -/
theorem frame_stands_alone (stream : List UInt8) :
    (stream.length < 4 → IsNetworkFailure (read stream).1 ∧ (read stream).2 = []) ∧
      (∀ header rest, stream = header ++ rest → header.length = 4 →
        (maxLength < ofBigEndian header →
          IsProtocolFailure (read stream).1 ∧ (read stream).2 = rest) ∧
        (ofBigEndian header ≤ maxLength → rest.length < ofBigEndian header →
          IsNetworkFailure (read stream).1 ∧ (read stream).2 = []) ∧
        ∀ payload later, rest = payload ++ later → payload.length = ofBigEndian header →
          payload.length ≤ maxLength →
          (read stream).2 = later ∧ (IsProtocolFailure (read stream).1 ∨
            ∃ e, (read stream).1 = .ok e ∧ HoldsAll payload e ∧
              ∀ run ∈ runs e.message, run <:+: payload)) ∧
      (¬ IsNetworkFailure (read stream).1 → ∃ consumed, stream = consumed ++ (read stream).2 ∧
        ∀ other, read (consumed ++ other) = ((read stream).1, other)) ∧
      (∀ payloads : List (List UInt8), (∀ payload ∈ payloads, payload.length ≤ maxLength) →
        Answers ((payloads.map framed).flatten ++ stream) (payloads.map decoded) stream) ∧
      ∃ (es : List Envelope) (rest : List UInt8) (why : ReadError),
        Answers stream (es.map .ok) rest ∧ (read rest).1 = .error why ∧
          52 * es.length + rest.length ≤ stream.length := by
  refine ⟨fun hshort => ?_, ?_, read_append_of_not_network,
    fun payloads h => answers_framed payloads h stream, exists_failure stream⟩
  · rw [read_of_short hshort]
    exact ⟨⟨_, _, rfl, rfl⟩, rfl⟩
  · rintro header rest rfl hheader
    refine ⟨fun hlong => ?_, fun hlimit hcut => ?_, ?_⟩
    · rw [read_of_long hheader hlong]
      exact ⟨⟨_, _, rfl, rfl⟩, rfl⟩
    · rw [read_of_cut hheader hlimit hcut]
      exact ⟨⟨_, _, rfl, rfl⟩, rfl⟩
    · rintro payload later rfl hpayload hlimit
      rw [← List.append_assoc, read_of_whole hheader (by omega) hpayload]
      refine ⟨rfl, (decoded_cases payload).imp id ?_⟩
      rintro ⟨e, he, hread⟩
      have hholds := holdsAll_of_readArchive? hread
      exact ⟨e, he, hholds, hholds.isInfix⟩

/-- The payload of `loose` with its offset one lower, so that it points before the payload. -/
def astray : List UInt8 := (loose.drop 4).set 16 243

-- A payload that is pointed out of is passed over, and the frame behind it is read.
theorem frame_stands_alone_astray :
    let stream := framed astray ++ loose
    IsProtocolFailure (read stream).1 ∧ (read stream).2 = loose ∧
      (∃ consumed, stream = consumed ++ loose ∧
        ∀ other, read (consumed ++ other) = ((read stream).1, other)) ∧
      Answers (framed astray ++ (framed (loose.drop 4) ++ []))
        [.error .undecodable, .ok ⟨someId, .get "hi" 3⟩] [] := by
  intro stream
  have hlength : astray.length = 56 := rfl
  have hstream : stream = framed astray ++ loose := rfl
  have hnone : decoded astray = .error .undecodable := by decide +kernel
  have hsome : decoded (loose.drop 4) = .ok ⟨someId, .get "hi" 3⟩ := by decide +kernel
  have hread : read stream = (.error .undecodable, loose) := by
    rw [hstream, read_framed (by decide), hnone]
  have hprotocol : IsProtocolFailure (read stream).1 := ⟨_, _, by rw [hread], rfl⟩
  have hnetwork : ¬ IsNetworkFailure (read stream).1 := by
    rintro ⟨why, detail, hwhy, hkind⟩
    rw [hread] at hwhy
    cases hwhy
    cases hkind
  obtain ⟨-, -, halone, -, -⟩ := frame_stands_alone stream
  obtain ⟨-, -, -, hframed, -⟩ := frame_stands_alone []
  refine ⟨hprotocol, by rw [hread], ?_, ?_⟩
  · obtain ⟨consumed, hconsumed, hother⟩ := halone hnetwork
    rw [show (read stream).2 = loose by rw [hread]] at hconsumed
    exact ⟨consumed, hconsumed, hother⟩
  · have hanswers := hframed [astray, loose.drop 4] (by decide)
    simpa [hnone, hsome] using hanswers

end ClusterClient.Frame
