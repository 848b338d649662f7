import Mathlib.Data.List.Basic
import Mathlib.Data.List.Infix

/-! Text that arrives as bytes in arbitrary chunks, read as blocks with an empty line
behind each one: a streaming decoder, and a splitter that keeps the last, unfinished block. -/
namespace TextStream
open List

/-! Bytes and characters. -/

def encode (text : List Char) : List UInt8 := text.flatMap String.utf8EncodeChar

def first? (bytes : List UInt8) : Option Char := bytes.toByteArray.utf8DecodeChar? 0

/-- The characters of at most `fuel` steps, and the bytes that are left. -/
def decodeUpTo : Nat → List UInt8 → List Char × List UInt8
  | 0, bytes => ([], bytes)
  | fuel + 1, bytes => match first? bytes with
    | none => ([], bytes)
    | some c =>
      let rest := decodeUpTo fuel (bytes.drop c.utf8Size)
      (c :: rest.1, rest.2)

/-- `TextDecoder` on well-formed text: the bytes of an unfinished character wait for the next chunk. -/
def decode (bytes : List UInt8) : List Char × List UInt8 := decodeUpTo bytes.length bytes

@[simp] theorem encode_nil : encode [] = [] := rfl

theorem encode_cons (c : Char) (text : List Char) : encode (c :: text) = String.utf8EncodeChar c ++ encode text :=
  flatMap_cons

theorem encode_append (text more : List Char) : encode (text ++ more) = encode text ++ encode more :=
  flatMap_append

theorem first?_append (c : Char) (bytes : List UInt8) : first? (String.utf8EncodeChar c ++ bytes) = some c := by
  rw [first?, toByteArray_append]
  exact ByteArray.utf8DecodeChar?_utf8EncodeChar_append

variable {bytes : List UInt8} {c : Char} {text : List Char} {blocks : List (List Char)}

theorem exists_of_first? (h : first? bytes = some c) : ∃ rest, bytes = String.utf8EncodeChar c ++ rest := by
  obtain ⟨rest, hrest⟩ := ByteArray.exists_of_utf8DecodeChar?_eq_some h
  refine ⟨rest.data.toList, ?_⟩
  have hlists := congrArg (fun b => b.data.toList) hrest
  simpa using hlists

theorem encodeChar_inj {d : Char} {more : List UInt8}
    (h : String.utf8EncodeChar c ++ bytes = String.utf8EncodeChar d ++ more) : c = d ∧ bytes = more := by
  have hc := first?_append c bytes
  rw [h, first?_append] at hc
  obtain rfl := Option.some.inj hc
  exact ⟨rfl, append_cancel_left h⟩

theorem prefix_of_encode : ∀ {whole : List Char}, encode text <+: encode whole → text <+: whole := by
  induction text with
  | nil => exact fun _ => nil_prefix
  | cons c text ih =>
    intro whole h
    obtain ⟨more, hmore⟩ := h
    cases whole with
    | nil =>
      rw [encode_cons, encode_nil] at hmore
      simp at hmore
    | cons d whole =>
      rw [encode_cons, encode_cons, append_assoc] at hmore
      obtain ⟨rfl, hrest⟩ := encodeChar_inj hmore
      exact (prefix_cons_inj c).mpr (ih ⟨more, hrest⟩)

theorem decodeUpTo_spec (fuel : Nat) : ∀ bytes : List UInt8, bytes.length ≤ fuel →
    encode (decodeUpTo fuel bytes).1 ++ (decodeUpTo fuel bytes).2 = bytes ∧
      first? (decodeUpTo fuel bytes).2 = none := by
  induction fuel with
  | zero =>
    intro bytes h
    obtain rfl := length_eq_zero_iff.mp (Nat.le_zero.mp h)
    exact ⟨rfl, rfl⟩
  | succ fuel ih =>
    intro bytes h
    rw [decodeUpTo]
    cases hc : first? bytes with
    | none => exact ⟨rfl, hc⟩
    | some c =>
      obtain ⟨rest, rfl⟩ := exists_of_first? hc
      have hdrop : (String.utf8EncodeChar c ++ rest).drop c.utf8Size = rest := by
        rw [← String.length_utf8EncodeChar c, drop_left]
      have hpos := c.utf8Size_pos
      simp only [length_append, String.length_utf8EncodeChar] at h
      obtain ⟨hencode, hnone⟩ := ih rest (by omega)
      dsimp only
      rw [hdrop, encode_cons, append_assoc, hencode]
      exact ⟨rfl, hnone⟩

theorem encode_decode (bytes : List UInt8) : encode (decode bytes).1 ++ (decode bytes).2 = bytes :=
  (decodeUpTo_spec bytes.length bytes le_rfl).1

theorem first?_decode (bytes : List UInt8) : first? (decode bytes).2 = none :=
  (decodeUpTo_spec bytes.length bytes le_rfl).2

/-- Where all bytes of a text are there, nothing is left over. -/
theorem eq_of_encode {whole : List Char} {pending : List UInt8} (hpending : first? pending = none)
    (h : encode text ++ pending = encode whole) : text = whole ∧ pending = [] := by
  obtain ⟨more, rfl⟩ := prefix_of_encode ⟨pending, h⟩
  rw [encode_append] at h
  obtain rfl := append_cancel_left h
  cases more with
  | nil => simp
  | cons c more =>
    rw [encode_cons, first?_append] at hpending
    cases hpending

/-! Blocks. -/

/-- The length of `\r?\n\r?\n` at the front of a text, 0 where it does not match. -/
def separator : List Char → Nat
  | '\n' :: '\n' :: _ => 2
  | '\n' :: '\r' :: '\n' :: _ => 3
  | '\r' :: '\n' :: '\n' :: _ => 3
  | '\r' :: '\n' :: '\r' :: '\n' :: _ => 4
  | _ => 0

/-- The blocks of a text in front of which `block` has been read, and what stands behind the last
separator; `skip` characters of a separator are still to pass. -/
def splitFrom (block : List Char) (skip : Nat) : List Char → List (List Char) × List Char
  | [] => ([], block)
  | c :: text =>
    if skip = 0 then
      if separator (c :: text) = 0 then splitFrom (block ++ [c]) 0 text
      else
        let rest := splitFrom [] (separator (c :: text) - 1) text
        (block :: rest.1, rest.2)
    else splitFrom block (skip - 1) text

/-- `text.split(/\r?\n\r?\n/)`: all pieces but the last, and the last. -/
def split (text : List Char) : List (List Char) × List Char := splitFrom [] 0 text

/-- Every line feed of the block stands in front of a line, and the block does not end in a line break. -/
def Tidy : List Char → Prop
  | [] => True
  | [c] => c ≠ '\n' ∧ c ≠ '\r'
  | c :: d :: text => (c = '\n' → d ≠ '\n' ∧ d ≠ '\r') ∧ Tidy (d :: text)

/-- The text of blocks, an empty line behind each. -/
def join (blocks : List (List Char)) : List Char := blocks.flatMap (· ++ ['\n', '\n'])

theorem Tidy.tail (h : Tidy (c :: text)) : Tidy text := by
  cases text with
  | nil => trivial
  | cons d text => exact h.2

theorem tidy_line {line : List Char} (hline : '\n' ∉ line) (hn : c ≠ '\n') (hr : c ≠ '\r') (h : Tidy (c :: text)) :
    Tidy (line ++ '\n' :: c :: text) := by
  induction line with
  | nil => exact ⟨fun _ => ⟨hn, hr⟩, h⟩
  | cons d line ih =>
    simp only [mem_cons, not_or] at hline
    obtain ⟨hd, hline⟩ := hline
    cases line with
    | nil => exact ⟨fun he => absurd he.symm hd, ih hline⟩
    | cons e line => exact ⟨fun he => absurd he.symm hd, ih hline⟩

theorem tidy_last {line : List Char} (hn : '\n' ∉ line) (hr : '\r' ∉ line) : Tidy line := by
  induction line with
  | nil => trivial
  | cons c line ih =>
    simp only [mem_cons, not_or] at hn hr
    obtain ⟨hcn, hn⟩ := hn
    obtain ⟨hcr, hr⟩ := hr
    cases line with
    | nil => exact ⟨Ne.symm hcn, Ne.symm hcr⟩
    | cons d line => exact ⟨fun he => absurd he.symm hcn, ih hn hr⟩

theorem Tidy.separator_eq (h : Tidy (c :: text)) (more : List Char) : separator (c :: (text ++ more)) = 0 := by
  cases text with
  | nil =>
    obtain ⟨hn, hr⟩ := h
    rw [separator] <;> simp [hn, hr]
  | cons d text =>
    obtain ⟨hc, hd⟩ := h
    by_cases hn : c = '\n'
    · obtain ⟨hdn, hdr⟩ := hc hn
      rw [separator] <;> simp [hn, hdn, hdr]
    · by_cases hr : d = '\n'
      · cases text with
        | nil => exact absurd hr hd.1
        | cons e text =>
          obtain ⟨hen, her⟩ := hd.1 hr
          rw [separator] <;> simp [hn, hen, her]
      · rw [separator] <;> simp [hn, hr]

theorem separator_of_append (text more : List Char) (h : separator (text ++ more) = 0) : separator text = 0 := by
  unfold separator
  split
  · exact absurd h (by simp [separator])
  · exact absurd h (by simp [separator])
  · exact absurd h (by simp [separator])
  · exact absurd h (by simp [separator])
  · rfl

theorem splitFrom_tail : ∀ {block rest : List Char}, Tidy text → rest <+: text ++ ['\n'] →
    splitFrom block 0 rest = ([], block ++ rest) := by
  induction text with
  | nil =>
    intro block rest _ h
    obtain rfl | ⟨tail, rfl, htail⟩ := prefix_cons_iff.mp h
    · simp [splitFrom]
    · obtain rfl := prefix_nil.mp htail
      rfl
  | cons c text ih =>
    intro block rest htidy h
    obtain rfl | ⟨tail, rfl, htail⟩ := prefix_cons_iff.mp h
    · simp [splitFrom]
    · obtain ⟨more, hmore⟩ := htail
      have hsep : separator (c :: tail) = 0 := by
        refine separator_of_append (c :: tail) more ?_
        rw [cons_append, hmore]
        exact htidy.separator_eq _
      rw [splitFrom, if_pos rfl, if_pos hsep, ih htidy.tail ⟨more, hmore⟩, append_assoc]
      rfl

theorem splitFrom_block (rest : List Char) : ∀ block : List Char, Tidy text →
    splitFrom block 0 (text ++ '\n' :: '\n' :: rest) = ((block ++ text) :: (split rest).1, (split rest).2) := by
  induction text with
  | nil =>
    intro block _
    have hsep : separator ('\n' :: '\n' :: rest) = 2 := rfl
    simp [splitFrom, hsep, split]
  | cons c text ih =>
    intro block htidy
    rw [cons_append, splitFrom, if_pos rfl, if_pos (htidy.separator_eq _), ih _ htidy.tail, append_assoc]
    rfl

theorem join_cons (block : List Char) (blocks : List (List Char)) :
    join (block :: blocks) = block ++ '\n' :: '\n' :: join blocks := by
  simp [join]

theorem join_append (blocks more : List (List Char)) : join (blocks ++ more) = join blocks ++ join more :=
  flatMap_append

/-- Text that begins a sequence of tidy blocks splits into the blocks that are complete, and a rest
in which nothing is complete. -/
theorem split_prefix (htidy : ∀ block ∈ blocks, Tidy block) :
    ∀ {text : List Char}, text <+: join blocks →
      (split text).1 <+: blocks ∧ text = join (split text).1 ++ (split text).2 ∧
        split (split text).2 = ([], (split text).2) := by
  induction blocks with
  | nil =>
    intro text h
    obtain rfl := prefix_nil.mp h
    exact ⟨List.nil_prefix, rfl, rfl⟩
  | cons block blocks ih =>
    intro text h
    have hblock := htidy block mem_cons_self
    rw [join_cons] at h
    have hfront : block ++ ['\n', '\n'] <+: block ++ '\n' :: '\n' :: join blocks :=
      (prefix_append_right_inj block).mpr ⟨join blocks, rfl⟩
    have hcut : (∃ rest, text = block ++ '\n' :: '\n' :: rest ∧ rest <+: join blocks) ∨ text <+: block ++ ['\n'] := by
      obtain ⟨rest, rfl⟩ | hle := prefix_or_prefix_of_prefix hfront h
      · refine Or.inl ⟨rest, by simp, ?_⟩
        simpa using h
      · obtain heq | hle := prefix_concat_iff.mp (show text <+: (block ++ ['\n']) ++ ['\n'] by simpa using hle)
        · exact Or.inl ⟨[], by simpa using heq, nil_prefix⟩
        · exact Or.inr hle
    obtain ⟨rest, rfl, hrest⟩ | hle := hcut
    · have hsplit := splitFrom_block rest [] hblock
      obtain ⟨hpre, htext, hclosed⟩ := ih (fun b hb => htidy b (mem_cons_of_mem _ hb)) hrest
      rw [split, hsplit, nil_append]
      refine ⟨(prefix_cons_inj block).mpr hpre, ?_, hclosed⟩
      rw [join_cons, append_assoc, cons_append, cons_append, ← htext]
    · have hsplit : split text = ([], text) := splitFrom_tail hblock hle
      rw [hsplit]
      exact ⟨List.nil_prefix, rfl, hsplit⟩

theorem split_join (htidy : ∀ block ∈ blocks, Tidy block) : split (join blocks) = (blocks, []) := by
  induction blocks with
  | nil => rfl
  | cons block blocks ih =>
    rw [join_cons, split, splitFrom_block _ _ (htidy block mem_cons_self),
      ih fun b hb => htidy b (mem_cons_of_mem _ hb), nil_append]

/-- Only a line feed completes a separator. -/
theorem separator_concat (hc : c ≠ '\n') (text : List Char) (h : separator text = 0) :
    separator (text ++ [c]) = 0 := by
  by_contra hne
  unfold separator at hne
  -- each separator ends with a line feed, so that it stands in the text already
  split at hne
  · next heq =>
    obtain _ | ⟨a, _ | ⟨b, text⟩⟩ := text
    · cases heq
    · cases heq
      exact hc rfl
    · cases heq
      cases h
  · next heq =>
    obtain _ | ⟨a, _ | ⟨b, _ | ⟨d, text⟩⟩⟩ := text
    · cases heq
    · cases heq
    · cases heq
      exact hc rfl
    · cases heq
      cases h
  · next heq =>
    obtain _ | ⟨a, _ | ⟨b, _ | ⟨d, text⟩⟩⟩ := text
    · cases heq
    · cases heq
    · cases heq
      exact hc rfl
    · cases heq
      cases h
  · next heq =>
    obtain _ | ⟨a, _ | ⟨b, _ | ⟨d, _ | ⟨e, text⟩⟩⟩⟩ := text
    · cases heq
    · cases heq
    · cases heq
    · cases heq
      exact hc rfl
    · cases heq
      cases h
  · exact hne rfl
theorem splitFrom_concat (hc : c ≠ '\n') (text : List Char) : ∀ block : List Char,
    splitFrom block 0 text = ([], block ++ text) → splitFrom block 0 (text ++ [c]) = ([], block ++ (text ++ [c])) := by
  induction text with
  | nil =>
    intro block _
    have hsep : separator [c] = 0 := separator_concat hc [] rfl
    simp [splitFrom, hsep]
  | cons d text ih =>
    intro block h
    by_cases hsep : separator (d :: text) = 0
    · rw [splitFrom, if_pos rfl, if_pos hsep] at h
      have hmore : separator (d :: (text ++ [c])) = 0 := separator_concat hc (d :: text) hsep
      have hrest := ih (block ++ [d]) (by rw [h, append_assoc]; rfl)
      rw [cons_append, splitFrom, if_pos rfl, if_pos hmore, hrest, append_assoc]
      rfl
    · rw [splitFrom, if_pos rfl, if_neg hsep] at h
      cases h

/-! The reader. -/

structure Reader where
  pending : List UInt8 := []
  buffer : List Char := []

/-- The blocks that a chunk completes. -/
def Reader.feed (r : Reader) (chunk : List UInt8) : Reader × List (List Char) :=
  let decoded := decode (r.pending ++ chunk)
  let pieces := split (r.buffer ++ decoded.1)
  ({ pending := decoded.2, buffer := pieces.2 }, pieces.1)

/-- The blocks that the end of the bytes completes: the decoder shows an unfinished character as U+FFFD. -/
def Reader.flush (r : Reader) : List (List Char) :=
  (split (if r.pending = [] then r.buffer else r.buffer ++ [Char.ofNat 0xFFFD])).1

/-- What the reader has made of the bytes it has been fed. -/
structure Reads (bytes : List UInt8) (r : Reader) (blocks : List (List Char)) : Prop where
  bytes_eq : bytes = encode (join blocks ++ r.buffer) ++ r.pending
  pending : first? r.pending = none
  buffer : split r.buffer = ([], r.buffer)

theorem Reads.start : Reads [] {} [] := ⟨rfl, rfl, rfl⟩

theorem Reads.feed {chunk : List UInt8} {r : Reader} {front : List (List Char)} (h : Reads bytes r front)
    (htidy : ∀ block ∈ blocks, Tidy block) (hfront : front <+: blocks)
    (hbytes : bytes ++ chunk <+: encode (join blocks)) :
    Reads (bytes ++ chunk) (r.feed chunk).1 (front ++ (r.feed chunk).2) ∧ front ++ (r.feed chunk).2 <+: blocks := by
  obtain ⟨rest, rfl⟩ := hfront
  have hdecode := encode_decode (r.pending ++ chunk)
  have hall : bytes ++ chunk =
      encode (join front ++ (r.buffer ++ (decode (r.pending ++ chunk)).1)) ++ (decode (r.pending ++ chunk)).2 := by
    calc bytes ++ chunk = encode (join front ++ r.buffer) ++ (r.pending ++ chunk) := by
          rw [h.bytes_eq, append_assoc]
      _ = encode (join front ++ r.buffer) ++
          (encode (decode (r.pending ++ chunk)).1 ++ (decode (r.pending ++ chunk)).2) := by rw [hdecode]
      _ = _ := by rw [← append_assoc, ← encode_append, append_assoc (join front)]
  have htext : r.buffer ++ (decode (r.pending ++ chunk)).1 <+: join rest := by
    rw [hall] at hbytes
    have := prefix_of_encode ((prefix_append _ _).trans hbytes)
    rw [join_append] at this
    exact (prefix_append_right_inj _).mp this
  obtain ⟨hpre, heq, hclosed⟩ := split_prefix (fun b hb => htidy b (mem_append_right _ hb)) htext
  refine ⟨⟨?_, first?_decode _, hclosed⟩, (prefix_append_right_inj front).mpr hpre⟩
  rw [hall, heq, Reader.feed, join_append, append_assoc]

/-- What a connection leaves unfinished completes nothing: the decoder's last character is no line feed. -/
theorem Reads.flush {r : Reader} (h : Reads bytes r blocks) : r.flush = [] := by
  unfold Reader.flush
  split
  · rw [h.buffer]
  · rw [split, splitFrom_concat (by decide) r.buffer [] h.buffer]

theorem Reads.complete {r : Reader} {front : List (List Char)} (htidy : ∀ block ∈ blocks, Tidy block)
    (hfront : front <+: blocks) (h : Reads (encode (join blocks)) r front) : front = blocks := by
  obtain ⟨rest, rfl⟩ := hfront
  obtain ⟨htext, -⟩ := eq_of_encode h.pending h.bytes_eq.symm
  rw [join_append] at htext
  have hbuffer := h.buffer
  rw [append_cancel_left htext, split_join fun b hb => htidy b (mem_append_right _ hb)] at hbuffer
  rw [(Prod.mk.inj hbuffer).1, append_nil]

end TextStream
