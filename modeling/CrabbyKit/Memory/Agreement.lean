import CrabbyKit.Memory.Indexer

/-!
# The index agrees with the files

What is stored of a document is the index of some content: the one that was indexed last. While no
attempt at the path has failed since, that is the content of the file.
-/

namespace CrabbyKit.Memory

open List Option Function

variable {Values : Type}

theorem parts_eq {sep : Char} {a a' z z' : List Char} (ha : sep ∉ a) (ha' : sep ∉ a')
    (h : a ++ sep :: z = a' ++ sep :: z') : a = a' ∧ z = z' := by
  induction a generalizing a' with
  | nil =>
    cases a' with
    | nil => exact ⟨rfl, (List.cons.inj h).2⟩
    | cons c rest =>
      rw [(List.cons.inj h).1] at ha'
      exact absurd mem_cons_self ha'
  | cons c rest ih =>
    cases a' with
    | nil =>
      rw [← (List.cons.inj h).1] at ha
      exact absurd mem_cons_self ha
    | cons c' rest' =>
      obtain ⟨rfl, htail⟩ := List.cons.inj h
      obtain ⟨rfl, hz⟩ := ih (not_mem_of_not_mem_cons ha) (not_mem_of_not_mem_cons ha') htail
      exact ⟨rfl, hz⟩

variable {line : Nat}

theorem vectorId_inj {path path' : String} {line' : Nat} :
    vectorId path line = vectorId path' line' ↔ path = path' ∧ line = line' := by
  refine ⟨fun h => ?_, fun h => by rw [h.1, h.2]⟩
  have hlist := congrArg String.toList h
  simp only [vectorId, String.toList_append] at hlist
  have hcolon : ∀ n, ':' ∉ (Nat.repr n).toList := by
    intro n hmem
    rw [Nat.toList_repr] at hmem
    have hdigit := Nat.isDigit_of_mem_toDigits (by omega) (by omega) hmem
    revert hdigit
    decide
  -- Nothing behind the last colon is a colon, so both ids part at the same place.
  have hparts : path.toList = path'.toList ∧ (Nat.repr line).toList = (Nat.repr line').toList := by
    have hrev := congrArg List.reverse hlist
    simp only [reverse_append, append_assoc] at hrev
    change (Nat.repr line).toList.reverse ++ (':' :: path.toList.reverse) =
      (Nat.repr line').toList.reverse ++ (':' :: path'.toList.reverse) at hrev
    obtain ⟨hline, hpath⟩ := parts_eq (fun hmem => hcolon line (mem_reverse.mp hmem))
      (fun hmem => hcolon line' (mem_reverse.mp hmem)) hrev
    exact ⟨reverse_injective hpath, reverse_injective hline⟩
  refine ⟨String.toList_injective hparts.1, ?_⟩
  have hread := congrArg (Nat.ofDigitChars 10 · 0) hparts.2
  simpa only [Nat.toList_repr, Nat.ofDigitChars_ten_toDigits] using hread

def chunkAt (chunks : List Chunk) (line : Nat) : Option Chunk :=
  chunks.find? fun c => c.startLine = line

variable {chunks : List Chunk}

theorem chunkAt_eq_some (h : chunks.Pairwise fun c c' => c.startLine < c'.startLine) {c : Chunk} :
    chunkAt chunks line = some c ↔ c ∈ chunks ∧ c.startLine = line := by
  refine ⟨fun hc => ⟨mem_of_find?_eq_some hc, by simpa using find?_some hc⟩, ?_⟩
  rintro ⟨hmem, rfl⟩
  induction chunks with
  | nil => cases hmem
  | cons first rest ih =>
    obtain ⟨hfirst, hrest⟩ := pairwise_cons.mp h
    rcases mem_cons.mp hmem with rfl | hmem
    · exact find?_cons_of_pos (by simp)
    · have hlt := hfirst c hmem
      refine (find?_cons_of_neg ?_).trans (ih hrest hmem)
      simpa using hlt.ne

theorem chunkAt_eq_none : chunkAt chunks line = none ↔ ∀ c ∈ chunks, c.startLine ≠ line := by
  simp [chunkAt]

theorem hashesOf_eq (h : chunks.Pairwise fun c c' => c.startLine < c'.startLine) (line : Nat) :
    hashesOf chunks line = (chunkAt chunks line).map Chunk.hash := by
  have hgeneral : ∀ start : Hashes, (∀ c ∈ chunks, start c.startLine = none) →
      chunks.foldl (fun (hashes : Hashes) c => Function.update hashes c.startLine (some c.hash))
        start line = ((chunkAt chunks line).map Chunk.hash).or (start line) := by
    induction chunks with
    | nil =>
      intro start _
      simp [chunkAt]
    | cons first rest ih =>
      intro start hstart
      obtain ⟨hfirst, hrest⟩ := pairwise_cons.mp h
      have hnone : ∀ c ∈ rest,
          Function.update start first.startLine (some first.hash) c.startLine = none := by
        intro c hc
        rw [update_of_ne (hfirst c hc).ne']
        exact hstart c (mem_cons_of_mem _ hc)
      rw [foldl_cons, ih hrest _ hnone]
      by_cases hline : first.startLine = line
      · subst hline
        have habsent : chunkAt rest first.startLine = none :=
          chunkAt_eq_none.mpr fun c hc => (hfirst c hc).ne'
        have hfound : chunkAt (first :: rest) first.startLine = some first :=
          find?_cons_of_pos (by simp)
        rw [habsent, hfound, update_self]
        rfl
      · have hskip : chunkAt (first :: rest) line = chunkAt rest line :=
          find?_cons_of_neg (by simpa using hline)
        rw [hskip, update_of_ne (Ne.symm hline)]
  have hall := hgeneral (fun _ => none) fun _ _ => rfl
  rw [or_none] at hall
  exact hall

variable {vectors : VectorizeIndex Values} {payload : List (String × IndexedVector Values)}

theorem upsert_of_notMem {id : String}
    (h : ∀ entry ∈ payload, entry.1 ≠ id) : upsert vectors payload id = vectors id := by
  unfold upsert
  induction payload generalizing vectors with
  | nil => rfl
  | cons entry rest ih =>
    rw [foldl_cons, ih fun e he => h e (mem_cons_of_mem _ he)]
    exact update_of_ne (h entry mem_cons_self).symm _ _

theorem upsert_of_mem {entry : String × IndexedVector Values}
    (hnodup : (payload.map Prod.fst).Nodup) (h : entry ∈ payload) :
    upsert vectors payload entry.1 = some entry.2 := by
  induction payload generalizing vectors with
  | nil => cases h
  | cons first rest ih =>
    obtain ⟨hfirst, hrest⟩ := nodup_cons.mp hnodup
    change upsert (Function.update vectors first.1 (some first.2)) rest entry.1 = some entry.2
    rcases mem_cons.mp h with rfl | h
    · rw [upsert_of_notMem, update_self]
      intro e he heq
      exact hfirst (List.mem_map.mpr ⟨e, he, heq⟩)
    · exact ih hrest h

namespace Stores

variable (sha256Hex : String → String) (embedding : String → Values) (shouldIndex : String → Bool)

def vectorOf (path : String) (c : Chunk) : IndexedVector Values :=
  ⟨embedding c.content, path, c.startLine, c.endLine, c.hash⟩

/-- The chunks of a file; a file that is not there has none. -/
def chunksOf : Option String → List Chunk
  | none => []
  | some content => chunkMarkdown sha256Hex content

/-- The vectors at a path are those of the chunks, and so are its stored hashes and ids. -/
structure Indexed (s : Stores Values) (path : String) (chunks : List Chunk) : Prop where
  vectors : ∀ line, s.vectors (vectorId path line) =
    (chunkAt chunks line).map (vectorOf embedding path)
  hashes : ∀ line, s.oldHashes path line = (chunkAt chunks line).map Chunk.hash
  ids : s.oldIds path = chunks.map fun c => vectorId path c.startLine

/-- What the index and the files have to do with each other. -/
structure Agrees (s : Stores Values) : Prop where
  /-- A path whose last attempt did not fail has the index of its file. -/
  current : ∀ path, shouldIndex path = true → s.failed path = false →
    s.Indexed embedding path (chunksOf sha256Hex (s.bucket path))
  /-- What is stored of a path is what the vector index holds. -/
  recorded : ∀ path, ∃ content, s.Indexed embedding path (chunksOf sha256Hex content)
  /-- There are no other vectors. -/
  known : ∀ id v, s.vectors id = some v →
    ∃ path line, shouldIndex path = true ∧ id = vectorId path line
  /-- Different chunks have different ids. -/
  distinct : ∀ path path', ∀ c ∈ chunksOf sha256Hex (s.bucket path),
    ∀ c' ∈ chunksOf sha256Hex (s.bucket path'),
      vectorId path c.startLine = vectorId path' c'.startLine → path = path' ∧ c = c'
  /-- Indexing the content of the file again changes nothing. -/
  stable : ∀ path content embed, shouldIndex path = true → s.failed path = false →
    s.bucket path = some content →
      let s' := (s.indexDocument sha256Hex path content embed).1
      s'.vectors = s.vectors ∧ s'.failed = s.failed ∧ s'.oldIds = s.oldIds ∧
        s'.oldHashes = s.oldHashes

/-- A path that is watched is passed to the tools in its normalized form. -/
def Plain (path : String) : Prop :=
  (shouldIndex path = true → Files.validatePath path = .ok path) ∧
    ∀ normalized, Files.validatePath path = .ok normalized → shouldIndex normalized = true →
      normalized = path

/-- An attempt at a content is sound: no vector has the start line and the hash of a chunk that is
another text or ends elsewhere, and the embedding fails or answers every text. -/
def Sound (s : Stores Values) (path content : String) (embed : EmbedFn Values) : Prop :=
  let chunks := chunkMarkdown sha256Hex content
  let changed := s.changedChunks path chunks
  (∀ c ∈ chunks, ∀ v, s.vectors (vectorId path c.startLine) = some v → v.hash = c.hash →
    v.values = embedding c.content ∧ v.endLine = c.endLine) ∧
  (changed = [] ∨ (∃ err, embed (changed.map Chunk.content) = .error err) ∨
    embed (changed.map Chunk.content) = .ok (changed.map fun c => embedding c.content))

/-- The calls after which the index can agree with the files. -/
def Faithful (s : Stores Values) : ToolCall Values → Prop
  | .write path content embed =>
    Plain shouldIndex path ∧ (shouldIndex path = true →
      (encodeText content).length ≤ Files.maxContentBytes ∧
      (content = "" → s.oldIds path = []) ∧ s.Sound sha256Hex embedding path content embed)
  | .edit path oldString newString replaceAll embed =>
    Plain shouldIndex path ∧ (shouldIndex path = true → ∀ result bucket content,
      Files.fileEdit path oldString newString replaceAll s.bucket = some (result, bucket) →
        bucket path = some content → s.Sound sha256Hex embedding path content embed)
  | .delete path => Plain shouldIndex path

variable {sha256Hex} {embedding} {shouldIndex} {s s' : Stores Values} {path : String}
  {chunks : List Chunk}

theorem chunksOf_sorted (content : Option String) :
    (chunksOf sha256Hex content).Pairwise fun c c' => c.startLine < c'.startLine := by
  cases content with
  | none => exact List.Pairwise.nil
  | some content => exact chunkMarkdown_sorted _ content

theorem Indexed.frame (h : s.Indexed embedding path chunks)
    (hvectors : ∀ line, s'.vectors (vectorId path line) = s.vectors (vectorId path line))
    (hhashes : s'.hashes path = s.hashes path) (hids : s'.vectorIds path = s.vectorIds path) :
    s'.Indexed embedding path chunks where
  vectors line := (hvectors line).trans (h.vectors line)
  hashes line := by
    have hline := h.hashes line
    unfold oldHashes at hline ⊢
    rw [hhashes]
    exact hline
  ids := by
    have hall := h.ids
    unfold oldIds at hall ⊢
    rw [hids]
    exact hall

theorem Indexed.mem_ids (h : s.Indexed embedding path chunks) {id : String} :
    id ∈ s.oldIds path ↔ ∃ c ∈ chunks, vectorId path c.startLine = id := by
  rw [h.ids, List.mem_map]

variable {other : String}

theorem Indexed.notMem_ids (h : s.Indexed embedding path chunks)
    (hne : other ≠ path) (line : Nat) : vectorId other line ∉ s.oldIds path := by
  intro hmem
  obtain ⟨c, -, hid⟩ := h.mem_ids.mp hmem
  exact hne (vectorId_inj.mp hid).1.symm

theorem upsertPayload_map (path : String) (changed : List Chunk) :
    upsertPayload path changed (changed.map fun c => embedding c.content) =
      changed.map fun c => (vectorId path c.startLine, vectorOf embedding path c) := by
  unfold upsertPayload
  induction changed with
  | nil => rfl
  | cons c rest ih =>
    simp only [map_cons, zip_cons_cons]
    exact congrArg _ ih

variable {embed : EmbedFn Values}

variable {new : String} {vectors : VectorizeIndex Values}

theorem embedChanged_ok {content : Option String}
    (h : s.Indexed embedding path (chunksOf sha256Hex content))
    (hsound : s.Sound sha256Hex embedding path new embed) {embedded : Nat}
    (hok : s.embedChanged path (s.changedChunks path (chunkMarkdown sha256Hex new)) embed =
      .ok (vectors, embedded)) :
    (∀ c ∈ chunkMarkdown sha256Hex new,
      vectors (vectorId path c.startLine) = some (vectorOf embedding path c)) ∧
    ∀ id, (∀ c ∈ chunkMarkdown sha256Hex new, vectorId path c.startLine ≠ id) →
      vectors id = s.vectors id := by
  obtain ⟨hkept, hembed⟩ := hsound
  have hsorted := chunkMarkdown_sorted sha256Hex new
  -- A chunk that has not changed has its vector.
  have hsame : ∀ c ∈ chunkMarkdown sha256Hex new,
      c ∉ s.changedChunks path (chunkMarkdown sha256Hex new) →
        s.vectors (vectorId path c.startLine) = some (vectorOf embedding path c) := by
    intro c hc hunchanged
    have hhash : s.oldHashes path c.startLine = some c.hash := by
      by_contra hne
      exact hunchanged (mem_filter.mpr ⟨hc, decide_eq_true hne⟩)
    rw [h.hashes] at hhash
    obtain ⟨old, hold, heq⟩ := map_eq_some_iff.mp hhash
    have hvector := h.vectors c.startLine
    rw [hold] at hvector
    have hline := ((chunkAt_eq_some (chunksOf_sorted content)).mp hold).2
    obtain ⟨hvalues, hend⟩ := hkept c hc _ hvector heq
    rw [hvector]
    change some (vectorOf embedding path old) = some (vectorOf embedding path c)
    change embedding old.content = embedding c.content at hvalues
    change old.endLine = c.endLine at hend
    simp only [vectorOf, hvalues, hend, hline, heq]
  unfold embedChanged at hok
  split_ifs at hok with hnil
  · cases hok
    refine ⟨fun c hc => hsame c hc ?_, fun _ _ => rfl⟩
    rw [hnil]
    exact not_mem_nil
  · rcases hembed with hempty | ⟨err, herr⟩ | hall
    · exact absurd hempty hnil
    · rw [herr] at hok
      cases hok
    · rw [hall] at hok
      simp only [length_map, if_true] at hok
      cases hok
      rw [upsertPayload_map]
      refine ⟨fun c hc => ?_, fun id hid => upsert_of_notMem fun entry hentry => ?_⟩
      · by_cases hchanged : c ∈ s.changedChunks path (chunkMarkdown sha256Hex new)
        · have hentry : (vectorId path c.startLine, vectorOf embedding path c) ∈
              (s.changedChunks path (chunkMarkdown sha256Hex new)).map fun c =>
                (vectorId path c.startLine, vectorOf embedding path c) :=
            List.mem_map.mpr ⟨c, hchanged, rfl⟩
          refine upsert_of_mem ?_ hentry
          rw [List.map_map]
          refine (List.Pairwise.filter _ hsorted).map _ fun a b hlt heq => ?_
          exact hlt.ne (vectorId_inj.mp heq).2
        · refine (upsert_of_notMem fun entry hentry heq => ?_).trans (hsame c hc hchanged)
          obtain ⟨c', hc', rfl⟩ := List.mem_map.mp hentry
          have hline := (vectorId_inj.mp heq).2
          have hmem := (mem_filter.mp hc').1
          have hfound := (chunkAt_eq_some hsorted).mpr ⟨hmem, hline⟩
          have hfound' := (chunkAt_eq_some hsorted).mpr ⟨hc, rfl⟩
          obtain rfl := Option.some.inj (hfound.symm.trans hfound')
          exact hchanged hc'
      · obtain ⟨c', hc', rfl⟩ := List.mem_map.mp hentry
        exact hid c' (mem_filter.mp hc').1

theorem embedChanged_of_ne {chunks : List Chunk} {embedded : Nat}
    (hok : s.embedChanged path chunks embed = .ok (vectors, embedded)) {id : String}
    (hid : ∀ line, id ≠ vectorId path line) : vectors id = s.vectors id := by
  unfold embedChanged at hok
  split_ifs at hok
  · cases hok
    rfl
  · split at hok
    · cases hok
    · split_ifs at hok <;> cases hok
      · refine upsert_of_notMem fun entry hentry heq => ?_
        obtain ⟨⟨c, values⟩, -, rfl⟩ := List.mem_map.mp hentry
        exact hid c.startLine heq.symm
      · rfl

theorem indexDocument_cases (content : Option String)
    (h : s.Indexed embedding path (chunksOf sha256Hex content))
    (hsound : s.Sound sha256Hex embedding path new embed) :
    let s' := (s.indexDocument sha256Hex path new embed).1
    (s'.failed path = true ∧ s'.Indexed embedding path (chunksOf sha256Hex content)) ∨
      (s'.failed path = false ∧ s'.Indexed embedding path (chunkMarkdown sha256Hex new)) := by
  have hsorted := chunkMarkdown_sorted sha256Hex new
  cases hok : s.embedChanged path (s.changedChunks path (chunkMarkdown sha256Hex new)) embed with
  | error err =>
    simp only [indexDocument, hok]
    exact .inl ⟨update_self _ _ _, h.frame (fun _ => rfl) rfl rfl⟩
  | ok result =>
    obtain ⟨vectors, embedded⟩ := result
    obtain ⟨hnew, hold⟩ := embedChanged_ok h hsound hok
    simp only [indexDocument, hok]
    refine .inr ⟨update_self _ _ _, ⟨fun line => ?_, fun line => ?_, ?_⟩⟩
    · simp only [deleteByIds]
      cases hfound : chunkAt (chunkMarkdown sha256Hex new) line with
      | some c =>
        obtain ⟨hc, rfl⟩ := (chunkAt_eq_some hsorted).mp hfound
        rw [if_neg, hnew c hc]
        · rfl
        · intro hstale
          have hfresh := (mem_filter.mp hstale).2
          exact of_decide_eq_true hfresh (List.mem_map.mpr ⟨c, hc, rfl⟩)
      | none =>
        have habsent := chunkAt_eq_none.mp hfound
        have hid : ∀ c ∈ chunkMarkdown sha256Hex new,
            vectorId path c.startLine ≠ vectorId path line :=
          fun c hc heq => habsent c hc (vectorId_inj.mp heq).2
        split_ifs with hstale
        · rfl
        · rw [hold _ hid, h.vectors]
          cases hbefore : chunkAt (chunksOf sha256Hex content) line with
          | none => rfl
          | some c =>
            -- The vector of a chunk that is gone is stale.
            obtain ⟨hc, rfl⟩ := (chunkAt_eq_some (chunksOf_sorted content)).mp hbefore
            refine absurd (mem_filter.mpr ⟨h.mem_ids.mpr ⟨c, hc, rfl⟩, decide_eq_true ?_⟩) hstale
            intro hmem
            obtain ⟨c', hc', heq⟩ := List.mem_map.mp hmem
            exact hid c' hc' heq
    · unfold oldHashes
      simp only [update_self, getD_some]
      exact hashesOf_eq hsorted line
    · unfold oldIds
      simp only [update_self, getD_some]

theorem indexDocument_of_ne {chunks : List Chunk} (h : s.Indexed embedding path chunks)
    (new : String) (embed : EmbedFn Values) :
    let s' := (s.indexDocument sha256Hex path new embed).1
    s'.bucket = s.bucket ∧
      (∀ other, other ≠ path → s'.hashes other = s.hashes other ∧
        s'.vectorIds other = s.vectorIds other ∧ s'.failed other = s.failed other) ∧
      ∀ id, (∀ line, id ≠ vectorId path line) → s'.vectors id = s.vectors id := by
  cases hok : s.embedChanged path (s.changedChunks path (chunkMarkdown sha256Hex new)) embed with
  | error err =>
    simp only [indexDocument, hok]
    exact ⟨trivial, fun other hne => ⟨trivial, trivial, update_of_ne hne _ _⟩,
      fun _ _ => trivial⟩
  | ok result =>
    obtain ⟨vectors, embedded⟩ := result
    simp only [indexDocument, hok]
    refine ⟨trivial, fun other hne => ⟨update_of_ne hne _ _, update_of_ne hne _ _,
      update_of_ne hne _ _⟩, fun id hid => ?_⟩
    simp only [deleteByIds]
    rw [if_neg, embedChanged_of_ne hok hid]
    intro hstale
    obtain ⟨c, -, heq⟩ := h.mem_ids.mp (mem_filter.mp hstale).1
    exact hid c.startLine heq.symm

variable {content : String}

theorem indexDocument_stable
    (h : s.Indexed embedding path (chunkMarkdown sha256Hex content))
    (hfailed : s.failed path = false) (embed : EmbedFn Values) :
    let s' := (s.indexDocument sha256Hex path content embed).1
    s'.vectors = s.vectors ∧ s'.failed = s.failed ∧ s'.oldIds = s.oldIds ∧
      s'.oldHashes = s.oldHashes := by
  have hsorted := chunkMarkdown_sorted sha256Hex content
  have hchanged : s.changedChunks path (chunkMarkdown sha256Hex content) = [] := by
    refine filter_eq_nil_iff.mpr fun c hc hne => ?_
    rw [h.hashes, (chunkAt_eq_some hsorted).mpr ⟨hc, rfl⟩] at hne
    exact of_decide_eq_true hne rfl
  have hok : s.embedChanged path (s.changedChunks path (chunkMarkdown sha256Hex content)) embed =
      .ok (s.vectors, 0) := by
    rw [hchanged]
    rfl
  have hstale : (s.oldIds path).filter (fun id => id ∉ (chunkMarkdown sha256Hex content).map
      fun c => vectorId path c.startLine) = [] := by
    refine filter_eq_nil_iff.mpr fun id hid hne => ?_
    rw [h.ids] at hid
    exact of_decide_eq_true hne hid
  simp only [indexDocument, hok, hstale]
  refine ⟨?_, ?_, ?_, ?_⟩
  · funext id
    exact if_neg not_mem_nil
  · rw [← hfailed]
    exact update_eq_self _ _
  · funext other
    by_cases hother : other = path
    · subst hother
      unfold oldIds
      simp only [update_self, getD_some]
      exact h.ids.symm
    · unfold oldIds
      simp only [update_of_ne hother]
  · funext other line
    by_cases hother : other = path
    · subst hother
      rw [h.hashes]
      unfold oldHashes
      simp only [update_self, getD_some]
      exact hashesOf_eq hsorted line
    · unfold oldHashes
      simp only [update_of_ne hother]

variable (sha256Hex embedding shouldIndex) in
/-- What is stored is the index of some contents, and of the current ones where nothing failed. -/
structure Coherent (s : Stores Values) : Prop where
  recorded : ∀ path, ∃ content, s.Indexed embedding path (chunksOf sha256Hex content)
  current : ∀ path, shouldIndex path = true → s.failed path = false →
    s.Indexed embedding path (chunksOf sha256Hex (s.bucket path))
  known : ∀ id v, s.vectors id = some v →
    ∃ path line, shouldIndex path = true ∧ id = vectorId path line

theorem Coherent.agrees (h : s.Coherent sha256Hex embedding shouldIndex) :
    s.Agrees sha256Hex embedding shouldIndex where
  current := h.current
  recorded := h.recorded
  known := h.known
  distinct path path' c hc c' hc' heq := by
    obtain ⟨rfl, hline⟩ := vectorId_inj.mp heq
    have hfound := (chunkAt_eq_some (chunksOf_sorted (s.bucket path))).mpr ⟨hc, hline⟩
    have hfound' := (chunkAt_eq_some (chunksOf_sorted (s.bucket path))).mpr ⟨hc', rfl⟩
    exact ⟨rfl, Option.some.inj (hfound.symm.trans hfound')⟩
  stable path content embed hindex hfailed hbucket := by
    have hindexed := h.current path hindex hfailed
    rw [hbucket] at hindexed
    exact indexDocument_stable hindexed hfailed embed

variable {bucket : Files.Bucket}

theorem Coherent.files (h : s.Coherent sha256Hex embedding shouldIndex)
    (hsame : ∀ path, shouldIndex path = true → s.failed path = false →
      chunksOf sha256Hex (bucket path) = chunksOf sha256Hex (s.bucket path)) :
    ({ s with bucket } : Stores Values).Coherent sha256Hex embedding shouldIndex where
  recorded path := by
    obtain ⟨content, hindexed⟩ := h.recorded path
    exact ⟨content, hindexed.frame (fun _ => rfl) rfl rfl⟩
  current path hindex hfailed := by
    rw [hsame path hindex hfailed]
    exact (h.current path hindex hfailed).frame (fun _ => rfl) rfl rfl
  known := h.known

theorem Coherent.attempt (h : s.Coherent sha256Hex embedding shouldIndex)
    (hindex : shouldIndex path = true)
    (hsame : ∀ other, other ≠ path → shouldIndex other = true →
      chunksOf sha256Hex (bucket other) = chunksOf sha256Hex (s.bucket other))
    (hnew : bucket path = some new) (hsound : s.Sound sha256Hex embedding path new embed) :
    (({ s with bucket } : Stores Values).indexDocument sha256Hex path new embed).1.Coherent
      sha256Hex embedding shouldIndex := by
  obtain ⟨content, hindexed⟩ := h.recorded path
  have hbefore : ({ s with bucket } : Stores Values).Indexed embedding path
      (chunksOf sha256Hex content) := hindexed.frame (fun _ => rfl) rfl rfl
  have hcases := indexDocument_cases content hbefore hsound
  obtain ⟨hbucket, hother, hvectors⟩ := indexDocument_of_ne hbefore new embed
  have hframe : ∀ other, other ≠ path → ∀ chunks, s.Indexed embedding other chunks →
      (({ s with bucket } : Stores Values).indexDocument sha256Hex path new embed).1.Indexed
        embedding other chunks := by
    intro other hne chunks hchunks
    exact hchunks.frame (fun line => hvectors _ fun line' heq => hne (vectorId_inj.mp heq).1)
      (hother other hne).1 (hother other hne).2.1
  refine ⟨fun other => ?_, fun other hwatched hfailed => ?_, fun id v hid => ?_⟩
  · by_cases hne : other = path
    · subst hne
      rcases hcases with ⟨-, hold⟩ | ⟨-, hnow⟩
      · exact ⟨content, hold⟩
      · exact ⟨some new, hnow⟩
    · obtain ⟨content', hcontent'⟩ := h.recorded other
      exact ⟨content', hframe other hne _ hcontent'⟩
  · rw [hbucket]
    by_cases hne : other = path
    · subst hne
      rcases hcases with ⟨hfail, -⟩ | ⟨-, hnow⟩
      · rw [hfail] at hfailed
        cases hfailed
      · change Indexed embedding _ other (chunksOf sha256Hex (bucket other))
        rw [hnew]
        exact hnow
    · have hfailed' : s.failed other = false := (hother other hne).2.2.symm.trans hfailed
      change Indexed embedding _ other (chunksOf sha256Hex (bucket other))
      rw [hsame other hne hwatched]
      exact hframe other hne _ (h.current other hwatched hfailed')
  · by_cases hown : ∃ line, id = vectorId path line
    · obtain ⟨line, hline⟩ := hown
      exact ⟨path, line, hindex, hline⟩
    · exact h.known id v ((hvectors id fun line heq => hown ⟨line, heq⟩).symm.trans hid)

theorem Coherent.remove (h : s.Coherent sha256Hex embedding shouldIndex)
    (hsame : ∀ other, other ≠ path → shouldIndex other = true →
      chunksOf sha256Hex (bucket other) = chunksOf sha256Hex (s.bucket other))
    (hgone : bucket path = none) :
    (({ s with bucket } : Stores Values).removeDocument path).1.Coherent
      sha256Hex embedding shouldIndex := by
  obtain ⟨content, hindexed⟩ := h.recorded path
  have hnone : (({ s with bucket } : Stores Values).removeDocument path).1.Indexed embedding path
      (chunksOf sha256Hex none) := by
    refine ⟨fun line => ?_, fun line => ?_, ?_⟩
    · change deleteByIds s.vectors (s.oldIds path) (vectorId path line) = none
      unfold deleteByIds
      split_ifs with hmem
      · rfl
      · rw [hindexed.vectors]
        cases hfound : chunkAt (chunksOf sha256Hex content) line with
        | none => rfl
        | some c =>
          obtain ⟨hc, rfl⟩ := (chunkAt_eq_some (chunksOf_sorted content)).mp hfound
          exact absurd (hindexed.mem_ids.mpr ⟨c, hc, rfl⟩) hmem
    · simp [oldHashes, removeDocument, chunksOf, chunkAt]
    · simp [oldIds, removeDocument, chunksOf]
  have hframe : ∀ other, other ≠ path → ∀ chunks, s.Indexed embedding other chunks →
      (({ s with bucket } : Stores Values).removeDocument path).1.Indexed embedding other
        chunks := by
    intro other hne chunks hchunks
    refine hchunks.frame (fun line => ?_) (update_of_ne hne _ _)
      (update_of_ne hne _ _)
    exact if_neg (hindexed.notMem_ids hne line)
  refine ⟨fun other => ?_, fun other hwatched hfailed => ?_, fun id v hid => ?_⟩
  · by_cases hne : other = path
    · subst hne
      exact ⟨none, hnone⟩
    · obtain ⟨content', hcontent'⟩ := h.recorded other
      exact ⟨content', hframe other hne _ hcontent'⟩
  · change Indexed embedding _ other (chunksOf sha256Hex (bucket other))
    by_cases hne : other = path
    · subst hne
      rw [hgone]
      exact hnone
    · have hfailed' : s.failed other = false :=
        (update_of_ne hne _ _).symm.trans hfailed
      rw [hsame other hne hwatched]
      exact hframe other hne _ (h.current other hwatched hfailed')
  · change deleteByIds s.vectors (s.oldIds path) id = some v at hid
    unfold deleteByIds at hid
    split_ifs at hid
    exact h.known id v hid

theorem putMarkers_cases (dirs : List String) (bucket : Files.Bucket) (key : String) :
    Files.putMarkers dirs bucket key = bucket key ∨
      (bucket key = none ∧ Files.putMarkers dirs bucket key = some "") := by
  unfold Files.putMarkers
  induction dirs generalizing bucket with
  | nil => exact .inl rfl
  | cons dir rest ih =>
    rw [foldl_cons]
    split_ifs with hdir
    · rcases ih (Function.update bucket dir (some "")) with heq | ⟨hnone, hmarker⟩
      · by_cases hkey : key = dir
        · subst hkey
          rw [heq, update_self]
          exact .inr ⟨hdir, rfl⟩
        · rw [heq, update_of_ne hkey]
          exact .inl rfl
      · by_cases hkey : key = dir
        · subst hkey
          rw [update_self] at hnone
          cases hnone
        · rw [update_of_ne hkey] at hnone
          exact .inr ⟨hnone, hmarker⟩
    · exact ih bucket

theorem chunksOf_putMarkers (dirs : List String) (bucket : Files.Bucket) (key : String) :
    chunksOf sha256Hex (Files.putMarkers dirs bucket key) = chunksOf sha256Hex (bucket key) := by
  rcases putMarkers_cases dirs bucket key with heq | ⟨hnone, hmarker⟩
  · rw [heq]
  · rw [hnone, hmarker]
    rfl

theorem Plain.ne_normalized (h : Plain shouldIndex path) {normalized : String}
    (hwatched : shouldIndex other = true) (hne : shouldIndex path = true → other ≠ path)
    (hpath : Files.validatePath path = .ok normalized) : other ≠ normalized := by
  rintro rfl
  have heq := h.2 other hpath hwatched
  subst heq
  exact hne hwatched rfl

theorem fileWrite_chunks (h : Plain shouldIndex path)
    (hwatched : shouldIndex other = true) (hne : shouldIndex path = true → other ≠ path)
    (bucket : Files.Bucket) :
    chunksOf sha256Hex ((Files.fileWrite path content bucket).2 other) =
      chunksOf sha256Hex (bucket other) := by
  unfold Files.fileWrite
  cases hpath : Files.validatePath path with
  | error err => rfl
  | ok normalized =>
    simp only
    split_ifs
    · rfl
    · simp only
      rw [update_of_ne (h.ne_normalized hwatched hne hpath), chunksOf_putMarkers]

theorem fileWrite_self (hpath : Files.validatePath path = .ok path)
    (hsize : (encodeText content).length ≤ Files.maxContentBytes) (bucket : Files.Bucket) :
    (Files.fileWrite path content bucket).2 path = some content := by
  unfold Files.fileWrite
  rw [hpath]
  simp only
  rw [if_neg hsize.not_gt]
  exact update_self _ _ _

theorem coherent_step (h : s.Coherent sha256Hex embedding shouldIndex) {call : ToolCall Values}
    (hfaithful : s.Faithful sha256Hex embedding shouldIndex call) :
    (step sha256Hex shouldIndex s call).Coherent sha256Hex embedding shouldIndex := by
  cases call with
  | write path content embed =>
    obtain ⟨hplain, hwatch⟩ := hfaithful
    unfold step
    simp only [Bool.not_eq_true']
    split_ifs with hindex hempty
    · refine h.files fun other hother _ => fileWrite_chunks hplain hother (fun htrue => ?_) _
      rw [hindex] at htrue
      cases htrue
    · -- An empty content is not indexed; the file had no chunks before.
      have hindex' : shouldIndex path = true := by simpa using hindex
      obtain ⟨hsize, hids, -⟩ := hwatch hindex'
      refine h.files fun other hother hfailed => ?_
      by_cases hne : other = path
      · subst hne
        have hbefore := (h.current other hindex' hfailed).ids
        rw [hids hempty] at hbefore
        have hnil : chunksOf sha256Hex (s.bucket other) = [] :=
          map_eq_nil_iff.mp hbefore.symm
        rw [hnil, fileWrite_self (hplain.1 hindex') hsize, hempty]
        rfl
      · exact fileWrite_chunks hplain hother (fun _ => hne) _
    · have hindex' : shouldIndex path = true := by simpa using hindex
      obtain ⟨hsize, -, hsound⟩ := hwatch hindex'
      refine h.attempt hindex' (fun other hne hother =>
        fileWrite_chunks hplain hother (fun _ => hne) _) ?_ hsound
      exact fileWrite_self (hplain.1 hindex') hsize _
  | edit path oldString newString replaceAll embed =>
    obtain ⟨hplain, hwatch⟩ := hfaithful
    cases hedit : Files.fileEdit path oldString newString replaceAll s.bucket with
    | none =>
      simp only [step, hedit]
      exact h
    | some edited =>
      obtain ⟨result, bucket⟩ := edited
      have hsame : ∀ other, shouldIndex other = true → (shouldIndex path = true → other ≠ path) →
          chunksOf sha256Hex (bucket other) = chunksOf sha256Hex (s.bucket other) := by
        intro other hother hne
        rw [Files.fileEdit_of_ne (fun normalized => hplain.ne_normalized hother hne) hedit]
      simp only [step, hedit, Bool.not_eq_true']
      split_ifs with hindex
      · refine h.files fun other hother _ => hsame other hother fun htrue => ?_
        rw [hindex] at htrue
        cases htrue
      · have hindex' : shouldIndex path = true := by simpa using hindex
        cases hcontent : bucket path with
        | some content =>
          simp only
          exact h.attempt hindex' (fun other hne hother => hsame other hother fun _ => hne) hcontent
            (hwatch hindex' result bucket content hedit hcontent)
        | none =>
          simp only
          refine h.files fun other hother _ => ?_
          rcases Files.fileEdit_cases hedit with rfl | ⟨normalized, content, hpath, rfl⟩
          · rfl
          · by_cases hne : other = path
            · rw [hplain.1 hindex'] at hpath
              cases hpath
              rw [update_self] at hcontent
              cases hcontent
            · exact hsame other hother fun _ => hne
  | delete path =>
    have hsame : ∀ other, shouldIndex other = true → (shouldIndex path = true → other ≠ path) →
        chunksOf sha256Hex ((Files.fileDelete path s.bucket).2 other) =
          chunksOf sha256Hex (s.bucket other) := by
      intro other hother hne
      rw [Files.fileDelete_of_ne fun normalized => hfaithful.ne_normalized hother hne]
    unfold step
    simp only [Bool.not_eq_true']
    split_ifs with hindex
    · refine h.files fun other hother _ => hsame other hother fun htrue => ?_
      rw [hindex] at htrue
      cases htrue
    · have hindex' : shouldIndex path = true := by simpa using hindex
      refine h.remove (fun other hne hother => hsame other hother fun _ => hne) ?_
      simp only [Files.fileDelete, hfaithful.1 hindex', update_self]

theorem coherent_initial : ({} : Stores Values).Coherent sha256Hex embedding shouldIndex := by
  have hnone : ∀ path, ({} : Stores Values).Indexed embedding path (chunksOf sha256Hex none) :=
    fun path => ⟨fun _ => rfl, fun _ => rfl, rfl⟩
  refine ⟨fun path => ⟨none, hnone path⟩, fun path _ _ => hnone path, fun id v hid => ?_⟩
  cases hid

/-- In a run of faithful calls the vector index agrees with the files after every hook. -/
theorem index_agrees (sha256Hex : String → String) (embedding : String → Values)
    (shouldIndex : String → Bool) {calls : List (ToolCall Values)}
    (h : Run.Allowed (Faithful sha256Hex embedding shouldIndex) (step sha256Hex shouldIndex) {}
      calls) (before after : List (ToolCall Values)) (hsplit : calls = before ++ after) :
    (Run.run (step sha256Hex shouldIndex) {} before).Agrees sha256Hex embedding shouldIndex := by
  have hcoherent := Run.invariant_of_allowed
    (I := fun s => Coherent sha256Hex embedding shouldIndex s) coherent_initial
    (fun s call hs hfaithful => coherent_step hs hfaithful) h before after hsplit
  exact hcoherent.agrees

def digestOfAda (text : String) : String :=
  if text = "Ada likes tea." then
    "e3d2a38bc73271872f50deb3c024045de7bb20fec98a6f7c5288b52b77fcd5ce"
  else text

def answers (texts : List String) : Except String (List Nat) := .ok (texts.map String.length)

def writesAda : ToolCall Nat := .write "memory/ada.md" "Ada likes tea." answers

theorem plain_ada : Plain isMemoryPath "memory/ada.md" := by
  have hself : Files.validatePath "memory/ada.md" = .ok "memory/ada.md" := by decide
  refine ⟨fun _ => hself, fun normalized hpath _ => ?_⟩
  rw [hself] at hpath
  cases hpath
  rfl

theorem index_agrees_ada :
    (Run.run (step digestOfAda isMemoryPath) {} [writesAda]).Agrees digestOfAda String.length
        isMemoryPath ∧
      (Run.run (step digestOfAda isMemoryPath) {} [writesAda]).vectors "memory/ada.md:1" =
        some ⟨14, "memory/ada.md", 1, 1, digestOfAda "Ada likes tea."⟩ := by
  have hfaithful : Run.Allowed (Faithful digestOfAda String.length isMemoryPath)
      (step digestOfAda isMemoryPath) {} [writesAda] := by
    refine Run.allowed_cons ⟨plain_ada, fun _ => ⟨by decide, fun _ => rfl, ?_, ?_⟩⟩
      (Run.allowed_nil _ _ _)
    · intro c _ v hv
      cases hv
    · exact .inr (.inr (congrArg Except.ok List.map_map))
  exact ⟨index_agrees digestOfAda String.length isMemoryPath hfaithful [writesAda] []
    (append_nil _).symm, by decide⟩

/-- The file is emptied, and its vector stays. -/
theorem emptied_disagrees :
    ¬ (Run.run (step digestOfAda isMemoryPath) {}
      [writesAda, .write "memory/ada.md" "" answers]).Agrees digestOfAda String.length
        isMemoryPath := by
  intro h
  have hindexed := (h.current "memory/ada.md" (by decide) (by decide)).vectors 1
  have hstale : (Run.run (step digestOfAda isMemoryPath) {}
      [writesAda, .write "memory/ada.md" "" answers]).vectors (vectorId "memory/ada.md" 1) =
        some ⟨14, "memory/ada.md", 1, 1, digestOfAda "Ada likes tea."⟩ := by decide
  have hfile : (Run.run (step digestOfAda isMemoryPath) {}
      [writesAda, .write "memory/ada.md" "" answers]).bucket "memory/ada.md" = some "" := by decide
  rw [hstale, hfile] at hindexed
  cases hindexed

end Stores

end CrabbyKit.Memory
