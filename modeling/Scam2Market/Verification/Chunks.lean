import Scam2Market.Library.Packing
import Scam2Market.Library.Tokens
import Scam2Market.Verification.Claims
import Scam2Market.Verification.CurrentVersion

/-!
# The chunks of a disclosure

`_chunks` of `verification/service.py`: the stripped lines of a body that are not empty, packed into
chunks.

* `splitLines`: `str.splitlines`.  What ends a line is white space.
* `chunkStep`: one round of the loop.  It carries the text of the chunk at hand, which is stripped each
  time; as the lines are stripped, that changes nothing, and the text is that of the greedy packing.
* `chunks_lose_no_text`: the lines can be read off the chunks again.
-/

namespace Scam2Market
namespace Verification

open Library (Packed Packing pack packed_pack)

/-! ## Lines -/

/-- What ends a line. -/
def isLineBreak (c : Char) : Bool :=
  let n := c.toNat
  (10 ≤ n && n ≤ 13) || (28 ≤ n && n ≤ 30) || n = 133 || n = 8232 || n = 8233

/-- `text.splitlines()`, after a part of the first line. -/
def splitLinesFrom (line : List Char) : List Char → List (List Char)
  | [] => if line = [] then [] else [line]
  | '\r' :: '\n' :: rest => line :: splitLinesFrom [] rest
  | c :: rest =>
    if isLineBreak c then line :: splitLinesFrom [] rest else splitLinesFrom (line ++ [c]) rest

/-- `text.splitlines()`. -/
def splitLines (text : List Char) : List (List Char) :=
  splitLinesFrom [] text

/-- `[part.strip() for part in body.splitlines() if part.strip()]`. -/
def paragraphs (body : String) : List (List Char) :=
  ((splitLines body.toList).map (stripWhere isSpace)).filter (· ≠ [])

/-- `"\n".join(lines)`. -/
def joinLines (lines : List (List Char)) : List Char :=
  ['\n'].intercalate lines

/-! ## The loop -/

/-- One round of the loop: the chunks, and the text at hand. -/
def chunkStep (chunkCharacters : ℕ) (state : List (List Char) × List Char) (paragraph : List Char) :
    List (List Char) × List Char :=
  if state.2 ≠ [] ∧ chunkCharacters < state.2.length + paragraph.length + 1 then
    (state.1 ++ [state.2], paragraph)
  else (state.1, stripWhere isSpace (state.2 ++ '\n' :: paragraph))

/-- The texts of the chunks. -/
def chunkTexts (chunkCharacters : ℕ) (body : String) : List (List Char) :=
  let lines := if paragraphs body = [] then [stripWhere isSpace body.toList] else paragraphs body
  let (chunks, current) := lines.foldl (chunkStep chunkCharacters) ([], [])
  if current = [] then chunks else chunks ++ [current]

structure ChunkMetadata where
  sourceDocumentId : String
  title : String

/-- A chunk, with what it is stored with. -/
structure IndexedChunk extends DisclosureChunk where
  tokenCount : ℕ
  embeddingVersion : String
  metadata : ChunkMetadata

/-- What the service chunks with. -/
structure Chunker where
  embeddingVersion : String
  chunkCharacters : ℕ := 1200

namespace Chunker

variable (chunker : Chunker) (document : DisclosureDocument)

/-- The chunk with an index. -/
def chunkOf (index : ℕ) (text : List Char) : IndexedChunk where
  chunkId := ⟨(document.disclosureId, index)⟩
  disclosureId := document.disclosureId
  chunkIndex := index
  text := String.ofList text
  tokenCount := tokenCount text
  embeddingVersion := chunker.embeddingVersion
  metadata := { sourceDocumentId := document.sourceDocumentId, title := document.title }

/-- `_chunks(document)`. -/
def chunks : List IndexedChunk :=
  (chunkTexts chunker.chunkCharacters document.body).mapIdx (chunker.chunkOf document)

/-- The service that stores these chunks. -/
def service : DisclosureIngestionService where
  chunks := fun document => (chunker.chunks document).map (·.toDisclosureChunk)

end Chunker

/-! ## The lines of a body -/

theorem isSpace_of_isLineBreak {c : Char} (h : isLineBreak c = true) : isSpace c = true := by
  simp only [isLineBreak, Bool.or_eq_true, Bool.and_eq_true, decide_eq_true_eq] at h
  simp only [isSpace, Bool.or_eq_true, Bool.and_eq_true, decide_eq_true_eq]
  omega

/-- The lines are the text without what ends them. -/
theorem flatten_splitLinesFrom (line text : List Char) :
    (splitLinesFrom line text).flatten = line ++ text.filter (!isLineBreak ·) := by
  fun_induction splitLinesFrom line text with
  | case1 => rfl
  | case2 line hline => simp
  | case3 line rest ih =>
    rw [List.flatten_cons, ih]
    rfl
  | case4 line c rest _ hbreak ih =>
    rw [List.flatten_cons, ih, List.filter_cons_of_neg (by simp [hbreak]), List.nil_append]
  | case5 line c rest _ hbreak ih =>
    rw [ih, List.filter_cons_of_pos (by simp [hbreak]), List.append_assoc, List.singleton_append]

theorem not_isLineBreak_of_mem {body : String} {line : List Char} {c : Char}
    (hline : line ∈ splitLines body.toList) (hc : c ∈ line) : isLineBreak c = false := by
  have hmem : c ∈ (splitLines body.toList).flatten := List.mem_flatten.mpr ⟨line, hline, hc⟩
  rw [splitLines, flatten_splitLinesFrom, List.nil_append] at hmem
  simpa using (List.mem_filter.mp hmem).2

variable {body : String} {line text : List Char} {lines : List (List Char)}

/-- Text that neither begins nor ends with white space, and is not empty. -/
structure Trimmed (text : List Char) : Prop where
  ne_nil : text ≠ []
  head : ∀ c, text.head? = some c → isSpace c = false
  last : ∀ c, text.getLast? = some c → isSpace c = false

theorem Trimmed.stripWhere_eq (h : Trimmed text) : stripWhere isSpace text = text :=
  Library.trim_eq_self h.head h.last

theorem trimmed_of_mem_paragraphs (h : line ∈ paragraphs body) : Trimmed line := by
  obtain ⟨hline, hne⟩ := List.mem_filter.mp h
  obtain ⟨raw, -, rfl⟩ := List.mem_map.mp hline
  obtain ⟨hhead, hlast⟩ := Library.ends_trim isSpace raw
  exact ⟨of_decide_eq_true hne, hhead, hlast⟩

theorem newline_notMem_of_mem_paragraphs (h : line ∈ paragraphs body) : '\n' ∉ line := by
  obtain ⟨raw, hraw, rfl⟩ := List.mem_map.mp (List.mem_filter.mp h).1
  intro hmem
  have hbreak := not_isLineBreak_of_mem hraw ((Library.trim_within isSpace raw).subset hmem)
  exact absurd hbreak (by decide)

/-- A body without a line that is not blank is blank. -/
theorem stripWhere_of_paragraphs_eq_nil (h : paragraphs body = []) :
    stripWhere isSpace body.toList = [] := by
  refine Library.trim_eq_nil fun c hc => ?_
  by_cases hbreak : isLineBreak c = true
  · exact isSpace_of_isLineBreak hbreak
  · have hmem : c ∈ (splitLines body.toList).flatten := by
      rw [splitLines, flatten_splitLinesFrom, List.nil_append]
      exact List.mem_filter.mpr ⟨hc, by simpa using hbreak⟩
    obtain ⟨raw, hraw, hcraw⟩ := List.mem_flatten.mp hmem
    by_contra hspace
    have hkept := Library.mem_trim hcraw (Bool.eq_false_iff.mpr hspace)
    have hline : stripWhere isSpace raw ∈ paragraphs body :=
      List.mem_filter.mpr ⟨List.mem_map_of_mem hraw, decide_eq_true (List.ne_nil_of_mem hkept)⟩
    rw [h] at hline
    exact absurd hline List.not_mem_nil

/-! ## Joined lines -/

theorem joinLines_singleton (line : List Char) : joinLines [line] = line :=
  List.intercalate_singleton

theorem joinLines_cons (line : List Char) (hne : lines ≠ []) :
    joinLines (line :: lines) = line ++ '\n' :: joinLines lines := by
  rw [joinLines, List.intercalate_cons_of_ne_nil hne, List.append_assoc, joinLines,
    List.singleton_append]

theorem joinLines_append {lines' : List (List Char)} (hne : lines ≠ []) (hne' : lines' ≠ []) :
    joinLines (lines ++ lines') = joinLines lines ++ '\n' :: joinLines lines' := by
  induction lines with
  | nil => exact absurd rfl hne
  | cons line lines ih =>
    by_cases hempty : lines = []
    · rw [hempty, List.singleton_append, joinLines_cons line hne', joinLines_singleton]
    · rw [List.cons_append, joinLines_cons line (List.append_ne_nil_of_left_ne_nil hempty lines'),
        ih hempty, joinLines_cons line hempty, List.append_assoc, List.cons_append]

theorem joinLines_concat (hne : lines ≠ []) (line : List Char) :
    joinLines (lines ++ [line]) = joinLines lines ++ '\n' :: line := by
  rw [joinLines_append hne (List.cons_ne_nil line []), joinLines_singleton]

/-- The groups joined, and their texts joined, are the lines joined. -/
theorem joinLines_map_joinLines {groups : List (List (List Char))} (h : ∀ group ∈ groups, group ≠ []) :
    joinLines (groups.map joinLines) = joinLines groups.flatten := by
  induction groups using List.reverseRecOn with
  | nil => rfl
  | append_singleton groups group ih =>
    have ih := ih fun other hother => h other (List.mem_append_left _ hother)
    have hgroup := h group (List.mem_append_right _ (List.mem_singleton_self group))
    rw [List.map_append, List.flatten_append, List.map_singleton, List.flatten_singleton]
    by_cases hempty : groups = []
    · rw [hempty, List.map_nil, List.nil_append, List.flatten_nil, List.nil_append,
        joinLines_singleton]
    · have hflat : groups.flatten ≠ [] := by
        obtain ⟨first, hfirst⟩ := List.exists_mem_of_ne_nil groups hempty
        intro hnil
        exact h first (List.mem_append_left _ hfirst) (List.flatten_eq_nil_iff.mp hnil first hfirst)
      rw [joinLines_concat (by simpa using hempty), ih, joinLines_append hflat hgroup]

theorem Trimmed.append_line (h : Trimmed text) (hline : Trimmed line) :
    Trimmed (text ++ '\n' :: line) where
  ne_nil := List.append_ne_nil_of_left_ne_nil h.ne_nil _
  head := by
    rw [List.head?_append_of_ne_nil _ h.ne_nil]
    exact h.head
  last := by
    rw [List.getLast?_append_of_ne_nil _ (List.cons_ne_nil '\n' line),
      ← List.singleton_append, List.getLast?_append_of_ne_nil _ hline.ne_nil]
    exact hline.last

theorem trimmed_joinLines (hne : lines ≠ []) (h : ∀ line ∈ lines, Trimmed line) :
    Trimmed (joinLines lines) := by
  induction lines using List.reverseRecOn with
  | nil => exact absurd rfl hne
  | append_singleton lines line ih =>
    have hline := h line (List.mem_append_right _ (List.mem_singleton_self line))
    by_cases hempty : lines = []
    · rw [hempty, List.nil_append, joinLines_singleton]
      exact hline
    · rw [joinLines_concat hempty]
      exact (ih hempty fun other hother => h other (List.mem_append_left _ hother)).append_line hline

/-- The lines are read off the text again. -/
theorem splitOn_joinLines (hne : lines ≠ []) (h : ∀ line ∈ lines, '\n' ∉ line) :
    (joinLines lines).splitOn '\n' = lines :=
  List.splitOn_intercalate '\n' h hne

/-! ## The loop is the greedy packing -/

/-- The length of the text of a group. -/
def textLength (lines : List (List Char)) : ℕ :=
  (joinLines lines).length

/-- The state of the loop at a packing. -/
def stateOf (packing : Packing (List Char)) : List (List Char) × List Char :=
  (packing.finished.map joinLines, joinLines packing.current)

theorem joinLines_eq_nil_iff (h : ∀ line ∈ lines, Trimmed line) : joinLines lines = [] ↔ lines = [] := by
  refine ⟨fun hnil => ?_, fun hnil => by rw [hnil]; rfl⟩
  by_contra hne
  exact (trimmed_joinLines hne h).ne_nil hnil

theorem chunkStep_stateOf {chunkCharacters : ℕ} {packing : Packing (List Char)}
    (hcurrent : ∀ line ∈ packing.current, Trimmed line) (hline : Trimmed line) :
    chunkStep chunkCharacters (stateOf packing) line =
      stateOf (packing.add textLength chunkCharacters line) := by
  by_cases hempty : packing.current = []
  · have htext : stripWhere isSpace ('\n' :: line) = line := by
      have hbreak : ∀ c ∈ ['\n'], isSpace c = true := List.forall_mem_singleton.mpr rfl
      have hnone : ∀ c ∈ ([] : List Char), isSpace c = true := fun c hc => absurd hc List.not_mem_nil
      have hstrip := Library.trim_surround hbreak hnone line
      rw [List.append_nil] at hstrip
      exact hstrip.trans hline.stripWhere_eq
    rw [chunkStep, stateOf, Packing.add, if_neg (by rw [hempty]; exact fun h => h.1 rfl),
      if_neg (by rw [hempty]; exact fun h => h.1 rfl), stateOf, hempty, List.nil_append]
    rw [joinLines, List.intercalate_nil, List.nil_append, htext, joinLines_singleton]
  · have htext := trimmed_joinLines hempty hcurrent
    have hlength : textLength (packing.current ++ [line]) =
        (joinLines packing.current).length + line.length + 1 := by
      rw [textLength, joinLines_concat hempty, List.length_append, List.length_cons, Nat.add_assoc]
    rw [chunkStep, Packing.add, hlength]
    by_cases hfull : chunkCharacters < (joinLines packing.current).length + line.length + 1
    · rw [if_pos ⟨htext.ne_nil, hfull⟩, if_pos ⟨hempty, hfull⟩, stateOf, stateOf, List.map_append,
        List.map_singleton, joinLines_singleton]
    · rw [if_neg fun h => hfull h.2, if_neg fun h => hfull h.2, stateOf, stateOf,
        joinLines_concat hempty, (htext.append_line hline).stripWhere_eq]

theorem foldl_chunkStep {chunkCharacters : ℕ} (h : ∀ line ∈ lines, Trimmed line) :
    lines.foldl (chunkStep chunkCharacters) ([], []) = stateOf (pack textLength chunkCharacters lines) := by
  induction lines using List.reverseRecOn with
  | nil => rfl
  | append_singleton lines line ih =>
    have hlines : ∀ line ∈ lines, Trimmed line := fun other hother =>
      h other (List.mem_append_left _ hother)
    rw [List.foldl_concat, ih hlines, Library.pack_concat]
    exact chunkStep_stateOf (fun other hother => hlines other (Library.mem_of_mem_current hother))
      (h line (List.mem_append_right _ (List.mem_singleton_self line)))

/-- **The chunks are the groups of the greedy packing.** -/
theorem chunkTexts_eq (chunkCharacters : ℕ) (body : String) :
    chunkTexts chunkCharacters body =
      (pack textLength chunkCharacters (paragraphs body)).groups.map joinLines := by
  rw [chunkTexts]
  by_cases hempty : paragraphs body = []
  · rw [if_pos hempty, stripWhere_of_paragraphs_eq_nil hempty, hempty]
    rfl
  · have htrimmed : ∀ line ∈ paragraphs body, Trimmed line := fun _ => trimmed_of_mem_paragraphs
    have hcurrent : ∀ line ∈ (pack textLength chunkCharacters (paragraphs body)).current, Trimmed line :=
      fun line hline => htrimmed line (Library.mem_of_mem_current hline)
    rw [if_neg hempty, foldl_chunkStep htrimmed]
    simp only [stateOf, joinLines_eq_nil_iff hcurrent, Packing.groups]
    split_ifs
    · rfl
    · rw [List.map_append, List.map_singleton]

/-! ## What the chunks keep -/

namespace Chunker

variable (chunker : Chunker) (document : DisclosureDocument)

theorem map_text_chunks : (chunker.chunks document).map (·.text.toList) =
    chunkTexts chunker.chunkCharacters document.body := by
  refine List.ext_getElem (by simp [chunks]) fun i _ _ => ?_
  simp [chunks, chunkOf]

theorem map_chunkIndex_chunks : (chunker.chunks document).map (·.chunkIndex) =
    List.range (chunker.chunks document).length := by
  refine List.ext_getElem (by simp [chunks]) fun i _ _ => ?_
  simp [chunks, chunkOf]

theorem chunkId_of_mem {chunk : IndexedChunk} (h : chunk ∈ chunker.chunks document) :
    chunk.chunkId = ⟨(document.disclosureId, chunk.chunkIndex)⟩ := by
  obtain ⟨index, _, rfl⟩ := List.mem_mapIdx.mp h
  rfl

theorem nodup_chunkIds : ((chunker.chunks document).map (·.chunkId)).Nodup := by
  have hids : (chunker.chunks document).map (·.chunkId) =
      ((chunker.chunks document).map (·.chunkIndex)).map fun index =>
        (⟨(document.disclosureId, index)⟩ : ChunkId) := by
    rw [List.map_map]
    exact List.map_congr_left fun chunk hchunk => chunker.chunkId_of_mem document hchunk
  rw [hids, map_chunkIndex_chunks]
  refine List.Nodup.map (fun index index' heq => ?_) List.nodup_range
  exact congrArg (fun id : ChunkId => id.name.2) heq

/-- A text of the chunks is that of a group of lines. -/
theorem exists_groups : ∃ groups : List (List (List Char)),
    (chunker.chunks document).map (·.text.toList) = groups.map joinLines ∧
      Packed textLength chunker.chunkCharacters (paragraphs document.body) groups ∧
      ∀ group ∈ groups, ∀ line ∈ group, line ∈ paragraphs document.body := by
  have hpacked := packed_pack textLength chunker.chunkCharacters (paragraphs document.body)
  refine ⟨_, by rw [map_text_chunks, chunkTexts_eq], hpacked, fun group hgroup line hline => ?_⟩
  rw [← hpacked.flatten_eq]
  exact List.mem_flatten.mpr ⟨group, hgroup, hline⟩

/-- **No text is lost.**  The indexes count from zero and the ids are distinct.  The texts joined are the
lines joined, and the lines are read off the texts again.  No text is empty, only a single line is longer
than the limit, and no text has room for the first line of the next one. -/
theorem chunks_lose_no_text :
    (chunker.chunks document).map (·.chunkIndex) = List.range (chunker.chunks document).length ∧
      ((chunker.chunks document).map (·.chunkId)).Nodup ∧
      joinLines ((chunker.chunks document).map (·.text.toList)) = joinLines (paragraphs document.body) ∧
      ((chunker.chunks document).flatMap fun chunk => chunk.text.toList.splitOn '\n') =
        paragraphs document.body ∧
      (∀ chunk ∈ chunker.chunks document, chunk.text ≠ "" ∧
        (chunker.chunkCharacters < chunk.text.length → chunk.text.toList ∈ paragraphs document.body)) ∧
      (chunker.chunks document).IsChain fun chunk next =>
        ∀ line ∈ (next.text.toList.splitOn '\n').head?,
          chunker.chunkCharacters < chunk.text.length + 1 + line.length := by
  obtain ⟨groups, htexts, hpacked, hlines⟩ := chunker.exists_groups document
  have hread : ∀ group ∈ groups, (joinLines group).splitOn '\n' = group := fun group hgroup =>
    splitOn_joinLines (hpacked.ne_nil group hgroup) fun line hline =>
      newline_notMem_of_mem_paragraphs (hlines group hgroup line hline)
  have hgroup : ∀ chunk ∈ chunker.chunks document, ∃ group ∈ groups, joinLines group = chunk.text.toList := by
    intro chunk hchunk
    exact List.mem_map.mp (htexts ▸ List.mem_map_of_mem (f := fun chunk => chunk.text.toList) hchunk)
  refine ⟨chunker.map_chunkIndex_chunks document, chunker.nodup_chunkIds document, ?_, ?_, ?_, ?_⟩
  · rw [htexts, joinLines_map_joinLines hpacked.ne_nil, hpacked.flatten_eq]
  · calc ((chunker.chunks document).flatMap fun chunk => chunk.text.toList.splitOn '\n')
        = ((chunker.chunks document).map (·.text.toList)).flatMap fun text => text.splitOn '\n' := by
          rw [List.flatMap_map]
      _ = groups.flatMap fun group => (joinLines group).splitOn '\n' := by rw [htexts, List.flatMap_map]
      _ = groups.flatMap id := List.flatMap_congr hread
      _ = paragraphs document.body := by rw [List.flatMap_id, hpacked.flatten_eq]
  · intro chunk hchunk
    obtain ⟨group, hmem, htext⟩ := hgroup chunk hchunk
    have htrimmed := trimmed_joinLines (hpacked.ne_nil group hmem) fun line hline =>
      trimmed_of_mem_paragraphs (hlines group hmem line hline)
    rw [htext] at htrimmed
    refine ⟨fun hempty => htrimmed.ne_nil (by rw [hempty]; rfl), fun hlarge => ?_⟩
    rcases hpacked.fits group hmem with hfits | ⟨line, rfl⟩
    · rw [textLength, htext, String.length_toList] at hfits
      exact absurd hlarge (Nat.not_lt.mpr hfits)
    · rw [← htext, joinLines_singleton]
      exact hlines [line] hmem line (List.mem_singleton_self line)
  · have htight : groups.IsChain fun group next => ∀ line ∈ ((joinLines next).splitOn '\n').head?,
        chunker.chunkCharacters < (joinLines group).length + 1 + line.length := by
      refine List.IsChain.imp_of_mem_imp (fun group next hmem hnext hroom line hline => ?_) hpacked.tight
      rw [hread next hnext] at hline
      have hlarge := hroom line hline
      rw [textLength, joinLines_concat (hpacked.ne_nil group hmem), List.length_append,
        List.length_cons] at hlarge
      omega
    have hchain := (List.isChain_map joinLines (R := fun text next =>
      ∀ line ∈ (next.splitOn '\n').head?, chunker.chunkCharacters < text.length + 1 + line.length)).mpr
        htight
    rw [← htexts, List.isChain_map] at hchain
    exact hchain

end Chunker

/-- A line that does not fit stands alone. -/
example : (chunkTexts 5 "a\r\n\n bcd \nefghijk\nl").map String.ofList = ["a\nbcd", "efghijk", "l"] := by
  decide +kernel

end Verification
end Scam2Market
