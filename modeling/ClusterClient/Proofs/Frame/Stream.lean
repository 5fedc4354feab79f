import ClusterClient.Proofs.Frame.Archive
/-!
# Frames one after another

A frame that is read off a stream takes its own bytes and no others, so that frames written one
after another are read back one after another. An envelope that was read can be written again, into
a frame that is no longer than the one it came in.
-/

namespace ClusterClient.Frame

variable {stream body rest : List UInt8} {e : Envelope}

/-! ## One frame -/

theorem ofBigEndian_bigEndian {width n : Nat} (h : n < 1 <<< (8 * width)) :
    ofBigEndian (bigEndian width n) = n := by
  unfold ofBigEndian bigEndian
  rw [List.reverse_reverse, ofLittleEndian_littleEndian, Nat.mod_eq_of_lt h]

theorem length_bigEndian (width n : Nat) : (bigEndian width n).length = width := by
  unfold bigEndian
  rw [List.length_reverse, length_littleEndian]

/-- A stream starts with a frame that is read as an envelope, and goes on with the rest. -/
theorem read_eq_ok_iff :
    read stream = (.ok e, rest) ↔ ∃ header body, stream = header ++ body ++ rest ∧
      header.length = 4 ∧ ofBigEndian header = body.length ∧ body.length ≤ maxLength ∧
      readArchive? body = some e := by
  constructor
  · intro h
    unfold read at h
    split at h
    · cases h
    rename_i hheader
    simp only at h
    split at h
    · cases h
    rename_i hmax
    split at h
    · cases h
    rename_i hbody
    split at h
    · rename_i found hread
      cases h
      have hlength : ((stream.drop 4).take (ofBigEndian (stream.take 4))).length =
          ofBigEndian (stream.take 4) := by
        rw [List.length_take]
        omega
      refine ⟨stream.take 4, _, ?_, ?_, hlength.symm, by omega, hread⟩
      · rw [List.append_assoc, List.take_append_drop, List.take_append_drop]
      · rw [List.length_take]
        omega
    · cases h
  · rintro ⟨header, body, rfl, hheader, hlength, hmax, hread⟩
    have htake : (header ++ body ++ rest).take 4 = header := by
      rw [List.append_assoc, ← hheader, List.take_left]
    have hdrop : (header ++ body ++ rest).drop 4 = body ++ rest := by
      rw [List.append_assoc, ← hheader, List.drop_left]
    unfold read
    rw [if_neg (by simp only [List.length_append]; omega), htake, hdrop, hlength]
    simp only
    rw [if_neg (by omega), if_neg (by rw [List.length_append]; omega), List.take_left,
      List.drop_left, hread]

/-- The bytes of a frame. -/
def frame (e : Envelope) : List UInt8 := bigEndian 4 (archive e).length ++ archive e

theorem length_frame (e : Envelope) : (frame e).length = 4 + (archive e).length := by
  unfold frame
  rw [List.length_append, length_bigEndian]

theorem write_of_le (h : (archive e).length ≤ maxLength) : write e = .ok (frame e) := by
  unfold write
  exact if_neg (by omega)

theorem write_of_lt (h : maxLength < (archive e).length) :
    write e = .error (.protocol (overLimit (archive e).length)) := by
  unfold write
  exact if_pos h

theorem read_frame (h : (archive e).length ≤ maxLength) (rest : List UInt8) :
    read (frame e ++ rest) = (.ok e, rest) := by
  have hmax : maxLength < 1 <<< (8 * 4) := by decide
  apply read_eq_ok_iff.mpr
  exact ⟨bigEndian 4 (archive e).length, archive e, rfl, length_bigEndian 4 _,
    ofBigEndian_bigEndian (by omega), h, readArchive?_archive h⟩

/-! ## Several frames -/

/-- Reading off a stream again and again gives some envelopes, each from the bytes of its own frame,
and leaves the rest. -/
inductive Reads : List UInt8 → List Envelope → List UInt8 → Prop where
  | nil (stream : List UInt8) : Reads stream [] stream
  | cons {stream later rest : List UInt8} {e : Envelope} {es : List Envelope}
      (head : read stream = (.ok e, later))
      (consumed : stream.length = 4 + (archive e).length + later.length)
      (tail : Reads later es rest) : Reads stream (e :: es) rest

theorem reads_frames (es : List Envelope) (h : ∀ e ∈ es, (archive e).length ≤ maxLength)
    (rest : List UInt8) : Reads ((es.map frame).flatten ++ rest) es rest := by
  induction es with
  | nil => exact .nil rest
  | cons e es ih =>
    rw [List.forall_mem_cons] at h
    rw [List.map_cons, List.flatten_cons, List.append_assoc]
    apply Reads.cons (read_frame h.1 _)
    · rw [List.length_append, length_frame]
    · exact ih h.2

theorem mapM_write (es : List Envelope) (h : ∀ e ∈ es, (archive e).length ≤ maxLength) :
    es.mapM write = .ok (es.map frame) := by
  induction es with
  | nil => rfl
  | cons e es ih =>
    rw [List.forall_mem_cons] at h
    rw [List.mapM_cons, write_of_le h.1, ih h.2]
    rfl

/-- Envelopes that are written one after another are read back one after another, whatever follows
them. One whose archive is over the limit is refused. -/
theorem written_read_back :
    (∀ es : List Envelope, (∀ e ∈ es, (archive e).length ≤ maxLength) →
      ∃ frames, es.mapM write = .ok frames ∧ ∀ rest, Reads (frames.flatten ++ rest) es rest) ∧
      ∀ e, maxLength < (archive e).length → ∀ peerGone,
        send peerGone e = .error (.protocol (overLimit (archive e).length)) := by
  constructor
  · intro es h
    exact ⟨es.map frame, mapM_write es h, reads_frames es h⟩
  · intro e h peerGone
    unfold send
    rw [write_of_lt h]
    rfl

def someId : RequestId := ⟨Vector.replicate 16 7⟩

/-- A value that fills a frame by itself. -/
def heavy : Envelope := ⟨someId, .getResponse .success 5 (some (List.replicate maxLength 1))⟩

theorem length_archive_heavy : maxLength < (archive heavy).length := by
  have hbefore := length_beforeRoot heavy.message
  have houtside : (outside heavy.message).length = maxLength := List.length_replicate
  rw [length_archive, hbefore, houtside]
  show maxLength < maxLength + _ + 48
  omega

-- A key that stands outside its field and a value without bytes, then an envelope over the limit.
theorem written_read_back_pair :
    let es : List Envelope := [⟨someId, .get "user::1234" 7⟩,
      ⟨someId, .getResponse .notFound 5 (some [])⟩]
    (∀ e ∈ es, (archive e).length ≤ maxLength) ∧
      (∃ frames, es.mapM write = .ok frames ∧ Reads (frames.flatten ++ [0, 1]) es [0, 1]) ∧
      maxLength < (archive heavy).length ∧
      send false heavy = .error (.protocol (overLimit (archive heavy).length)) := by
  intro es
  have hes : ∀ e ∈ es, (archive e).length ≤ maxLength := by decide
  have hheavy := length_archive_heavy
  obtain ⟨frames, hwrite, hreads⟩ := written_read_back.1 es hes
  exact ⟨hes, ⟨frames, hwrite, hreads [0, 1]⟩, hheavy, written_read_back.2 heavy hheavy false⟩

/-- An envelope that was read is written again, into a frame that is no longer than the one it came
in, and is read from it. -/
theorem rewritten_read_back (h : read stream = (.ok e, rest)) :
    ∃ header body, stream = header ++ body ++ rest ∧ header.length = 4 ∧
      (archive e).length ≤ body.length ∧
      ∃ bytes, write e = .ok bytes ∧ bytes = bigEndian 4 (archive e).length ++ archive e ∧
        ∀ later, read (bytes ++ later) = (.ok e, later) := by
  obtain ⟨header, body, hstream, hheader, -, hmax, hread⟩ := read_eq_ok_iff.mp h
  have hle := length_archive_le hread
  have hfits : (archive e).length ≤ maxLength := by omega
  exact ⟨header, body, hstream, hheader, hle, frame e, write_of_le hfits, rfl, read_frame hfits⟩

/-- A frame whose key of two bytes stands before the root, with bytes around that no field uses. -/
def loose : List UInt8 :=
  [0, 0, 0, 56] ++ [104, 105, 9, 9, 9, 9, 9, 9] ++
    [4, 9, 9, 9] ++ [2, 0, 0, 0, 244, 255, 255, 255] ++ [3, 0, 0, 0] ++ List.replicate 16 9 ++
      List.replicate 16 7

theorem rewritten_read_back_loose :
    read (loose ++ [1]) = (.ok ⟨someId, .get "hi" 3⟩, [1]) ∧
      ∃ bytes, write ⟨someId, .get "hi" 3⟩ = .ok bytes ∧
        read (bytes ++ [2]) = (.ok ⟨someId, .get "hi" 3⟩, [2]) := by
  have hread : read (loose ++ [1]) = (.ok ⟨someId, .get "hi" 3⟩, [1]) := by decide +kernel
  obtain ⟨-, -, -, -, -, bytes, hwrite, -, hagain⟩ := rewritten_read_back hread
  exact ⟨hread, bytes, hwrite, hagain [2]⟩

end ClusterClient.Frame
