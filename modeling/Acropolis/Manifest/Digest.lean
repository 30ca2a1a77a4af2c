import Acropolis.Manifest.Sha256

/-!
# Streaming SHA-256

`compute_sha256` reads the file `chunk_size` bytes at a time and feeds every
chunk to one `hashlib` object. The loop ends at the first empty read, so it
makes one update per chunk, and the chunks are the file cut in order.
-/

namespace Acropolis.Manifest

/-- `f.read(size)` on a binary file whose unread bytes are `rest`: the next
`size` bytes (fewer at the end), all of them for a negative size; and what is
left unread. -/
def read (size : Int) (rest : List UInt8) : List UInt8 × List UInt8 :=
  if size < 0 then (rest, []) else (rest.take size.toNat, rest.drop size.toNat)

theorem read_length (size : Int) (rest : List UInt8) :
    (read size rest).1.length + (read size rest).2.length = rest.length := by
  unfold read
  split <;> simp only [List.length_take, List.length_drop, List.length_nil]
  · omega
  · omega

theorem read_shorter {size : Int} {rest : List UInt8} (filled : (read size rest).1 ≠ []) :
    (read size rest).2.length < rest.length := by
  have := read_length size rest
  have := List.length_pos.mpr filled
  omega

/-- The `while True` loop of `compute_sha256`: read a chunk, stop on an empty
one, otherwise update the hasher with it. -/
def hashLoop (H : Hasher) (chunkSize : Int) (hasher : H.State) (rest : List UInt8) : H.State :=
  if exhausted : (read chunkSize rest).1 = [] then hasher
  else
    have := read_shorter exhausted
    hashLoop H chunkSize (H.update hasher (read chunkSize rest).1) (read chunkSize rest).2
termination_by rest.length

/-- `compute_sha256(file_path, chunk_size)` on a file with these bytes. -/
def computeSha256 (H : Hasher) (content : List UInt8) (chunkSize : Int := 16 * 1024 * 1024) :
    String :=
  H.hexdigest (hashLoop H chunkSize H.init content)

/-- The chunks the loop passes to `hasher.update`, in order. -/
def chunksRead (chunkSize : Int) (rest : List UInt8) : List (List UInt8) :=
  if exhausted : (read chunkSize rest).1 = [] then []
  else
    have := read_shorter exhausted
    (read chunkSize rest).1 :: chunksRead chunkSize (read chunkSize rest).2
termination_by rest.length

theorem hashLoop_eq_foldl (H : Hasher) (chunkSize : Int) (hasher : H.State) (rest : List UInt8) :
    hashLoop H chunkSize hasher rest = (chunksRead chunkSize rest).foldl H.update hasher := by
  induction hasher, rest using hashLoop.induct H chunkSize with
  | case1 hasher rest empty => rw [hashLoop, chunksRead]; simp [empty]
  | case2 hasher rest filled _ inductionHypothesis =>
      rw [hashLoop, chunksRead]; simp [filled, inductionHypothesis]

theorem read_append (size : Int) (rest : List UInt8) :
    (read size rest).1 ++ (read size rest).2 = rest := by
  unfold read
  split <;> simp

theorem eq_nil_of_read_eq_nil {size : Int} {rest : List UInt8} (nonzero : size ≠ 0)
    (empty : (read size rest).1 = []) : rest = [] := by
  unfold read at empty
  split at empty
  · exact empty
  · have positive : size.toNat ≠ 0 := by omega
    simpa [List.take_eq_nil_iff, positive] using empty

theorem flatten_chunksRead {chunkSize : Int} (nonzero : chunkSize ≠ 0) (rest : List UInt8) :
    (chunksRead chunkSize rest).flatten = rest := by
  induction rest using chunksRead.induct chunkSize with
  | case1 rest empty =>
      rw [chunksRead, dif_pos empty, eq_nil_of_read_eq_nil nonzero empty]; rfl
  | case2 rest filled _ inductionHypothesis =>
      rw [chunksRead, dif_neg filled, List.flatten_cons, inductionHypothesis, read_append]

theorem foldl_update (H : Hasher) (chunks : List (List UInt8)) (s : H.State) :
    chunks.foldl H.update s = H.update s chunks.flatten := by
  induction chunks generalizing s with
  | nil => exact (H.update_nil s).symm
  | cons chunk chunks inductionHypothesis =>
      rw [List.foldl_cons, inductionHypothesis, H.update_append, List.flatten_cons]

theorem read_of_nonneg {size : Int} (nonnegative : 0 ≤ size) (rest : List UInt8) :
    read size rest = (rest.take size.toNat, rest.drop size.toNat) := by
  simp [read, Int.not_lt.mpr nonnegative]

theorem length_chunksRead {chunkSize : Int} (positive : 1 ≤ chunkSize) (rest : List UInt8) :
    (chunksRead chunkSize rest).length =
      (rest.length + chunkSize.toNat - 1) / chunkSize.toNat := by
  have k_pos : 1 ≤ chunkSize.toNat := by omega
  induction rest using chunksRead.induct chunkSize with
  | case1 rest empty =>
      rw [chunksRead, dif_pos empty, eq_nil_of_read_eq_nil (by omega) empty]
      simp [Nat.div_eq_of_lt (by omega : chunkSize.toNat - 1 < chunkSize.toNat)]
  | case2 rest filled _ inductionHypothesis =>
      have rest_pos : 0 < rest.length :=
        List.length_pos.mpr fun h => filled (by simp [h, read])
      have rest_length : (read chunkSize rest).2.length = rest.length - chunkSize.toNat := by
        simp [read_of_nonneg (by omega : 0 ≤ chunkSize)]
      rw [chunksRead, dif_neg filled, List.length_cons, inductionHypothesis, rest_length]
      by_cases short : rest.length < chunkSize.toNat
      · have one : (rest.length + chunkSize.toNat - 1) / chunkSize.toNat = 1 :=
          Nat.div_eq_of_lt_le (by omega) (by omega)
        rw [one, Nat.div_eq_of_lt (by omega)]
      · rw [show rest.length + chunkSize.toNat - 1 =
            rest.length - chunkSize.toNat + chunkSize.toNat - 1 + chunkSize.toNat by omega,
          Nat.add_div_right _ (by omega)]

theorem computeSha256_eq_update (H : Hasher) (content : List UInt8) {chunkSize : Int}
    (nonzero : chunkSize ≠ 0) :
    computeSha256 H content chunkSize = H.digest content := by
  rw [computeSha256, hashLoop_eq_foldl, foldl_update, flatten_chunksRead nonzero]; rfl

/-- For every file and every chunk size of at least one byte, the loop stops after
`⌈n / k⌉` updates, the chunks it feeds are the file cut in order, and the result
is the digest of the whole file, the same for every chunk size. -/
theorem computeSha256_chunked (H : Hasher) (content : List UInt8) {chunkSize : Int}
    (positive : 1 ≤ chunkSize) :
    (chunksRead chunkSize content).length =
        (content.length + chunkSize.toNat - 1) / chunkSize.toNat ∧
      (chunksRead chunkSize content).flatten = content ∧
      computeSha256 H content chunkSize = H.digest content :=
  ⟨length_chunksRead positive content, flatten_chunksRead (by omega) content,
    computeSha256_eq_update H content (by omega)⟩

theorem computeSha256_chunked_three_bytes :
    (1 : Int) ≤ 2 ∧
      (chunksRead 2 [1, 2, 3]).length = ([1, 2, 3].length + (2 : Int).toNat - 1) / (2 : Int).toNat ∧
      (chunksRead 2 [1, 2, 3]).flatten = [1, 2, 3] ∧
      computeSha256 Sha256.hasher [1, 2, 3] 2 = Sha256.hasher.digest [1, 2, 3] :=
  ⟨by decide, computeSha256_chunked Sha256.hasher [1, 2, 3] (by decide)⟩

end Acropolis.Manifest
