import CrabbyKit.Core.Run
import Mathlib.Logic.Function.Basic

/-!
# Seeds of the skill registry

`ensureTable` and `applySeedsOnce` of `d1-registry.ts`: the first reads of an isolate create the
table and write the seeds, statement by statement, while other reads may come in between. A step of
a read is one statement and what follows it up to the next one.
-/

namespace CrabbyKit.Skills.D1Registry

open List Function

structure SkillSeed where
  id : String
  name : String
  description : String
  version : String
  requiresCapabilities : List String
  skillMd : String
  deriving DecidableEq, Repr

/-- `SkillRow` without its id. -/
structure SkillRow where
  name : String
  description : String
  version : String
  contentHash : String
  requiresCapabilities : List String
  skillMd : String
  createdAt : String
  updatedAt : String
  deriving DecidableEq, Repr

/-- Where a read is: at a statement of `ensureTable` or `applySeedsOnce`, with the seed it is about
and those behind it, or at its own statement. -/
inductive Phase where
  | idle
  | creating
  | selecting (seed : SkillSeed) (rest : List SkillSeed)
  | updating (seed : SkillSeed) (rest : List SkillSeed)
  | inserting (seed : SkillSeed) (rest : List SkillSeed)
  | reading
  | returned
  | failed
  deriving DecidableEq, Repr

/-- The table, the flag of the registry, and the reads. -/
structure Isolate where
  table : String → Option SkillRow
  initialized : Bool := false
  reads : Nat → Phase := fun _ => .idle

/-- A read starts, runs its next statement at a time, or its next statement fails. -/
inductive Label where
  | start (i : Nat)
  | advance (i : Nat) (now : String)
  | fail (i : Nat)
  deriving DecidableEq, Repr

variable (computeHash : String → String) (seeds : List SkillSeed)

/-- The head of the loop over the seeds. -/
def next : List SkillSeed → Phase
  | [] => .reading
  | seed :: rest => .selecting seed rest

/-- What `SELECT content_hash, version` leads to. -/
def decideSeed (row : Option SkillRow) (seed : SkillSeed) (rest : List SkillSeed) : Phase :=
  match row with
  | none => .inserting seed rest
  | some row =>
    if row.contentHash = computeHash seed.skillMd then
      if row.version = seed.version then next rest else .updating seed rest
    else .inserting seed rest

/-- `UPDATE skills SET version = ?, name = ?, description = ?, updated_at = ?`. -/
def updateRow (seed : SkillSeed) (now : String) (row : SkillRow) : SkillRow :=
  { row with version := seed.version, name := seed.name, description := seed.description,
             updatedAt := now }

/-- `INSERT … ON CONFLICT(id) DO UPDATE`. -/
def insertRow (seed : SkillSeed) (now : String) (row : Option SkillRow) : SkillRow :=
  ⟨seed.name, seed.description, seed.version, computeHash seed.skillMd, seed.requiresCapabilities,
    seed.skillMd, (row.map SkillRow.createdAt).getD now, now⟩

def Isolate.at (s : Isolate) (i : Nat) (phase : Phase) : Isolate :=
  { s with reads := Function.update s.reads i phase }

def step (s : Isolate) : Label → Isolate
  | .start i =>
    if s.reads i = .idle then s.at i (if s.initialized then .reading else .creating) else s
  | .advance i now =>
    match s.reads i with
    | .creating => { s with initialized := true }.at i (next seeds)
    | .selecting seed rest => s.at i (decideSeed computeHash (s.table seed.id) seed rest)
    | .updating seed rest =>
      { s with
        table := Function.update s.table seed.id ((s.table seed.id).map (updateRow seed now)) }.at i
        (next rest)
    | .inserting seed rest =>
      { s with
        table := Function.update s.table seed.id
          (some (insertRow computeHash seed now (s.table seed.id))) }.at i (next rest)
    | .reading => s.at i .returned
    | _ => s
  | .fail i =>
    match s.reads i with
    | .idle | .returned | .failed => s
    | _ => s.at i .failed

structure Matches (seed : SkillSeed) (row : SkillRow) : Prop where
  name : row.name = seed.name
  description : row.description = seed.description
  version : row.version = seed.version
  contentHash : row.contentHash = computeHash seed.skillMd
  requiresCapabilities : row.requiresCapabilities = seed.requiresCapabilities
  skillMd : row.skillMd = seed.skillMd

def Stored (table : String → Option SkillRow) (seed : SkillSeed) : Prop :=
  ∃ row, table seed.id = some row ∧ Matches computeHash seed row

/-- Once a read has returned, the seeds are stored and nothing that follows changes the table; rows
that are no seeds are as they were. -/
structure SeedingLaw (table : String → Option SkillRow) (s : Isolate) : Prop where
  stored : ∀ i, s.reads i = .returned → ∀ seed ∈ seeds, Stored computeHash s.table seed
  settled : ∀ i, s.reads i = .returned → ∀ label,
    (step computeHash seeds s label).table = s.table
  others : ∀ id, (∀ seed ∈ seeds, seed.id ≠ id) → s.table id = table id

/-- A read is among the statements of `applySeedsOnce`. -/
def Phase.Seeding : Phase → Prop
  | .selecting _ _ | .updating _ _ | .inserting _ _ => True
  | _ => False

/-- No statement of `applySeedsOnce` fails, and no read runs its own statement before the seeds are
written. -/
def Calm (s : Isolate) : Label → Prop
  | .start _ => True
  | .advance i _ => s.reads i = .reading → ∀ j, ¬(s.reads j).Seeding
  | .fail i => ¬(s.reads i).Seeding

/-- Rows whose hash is that of a seed agree with it where they are not refreshed. -/
def Refreshable (table : String → Option SkillRow) : Prop :=
  ∀ seed ∈ seeds, ∀ row, table seed.id = some row → row.contentHash = computeHash seed.skillMd →
    row.skillMd = seed.skillMd ∧ row.requiresCapabilities = seed.requiresCapabilities ∧
      (row.version = seed.version → row.name = seed.name ∧ row.description = seed.description)

variable {computeHash} {seeds} {table : String → Option SkillRow} {s : Isolate}

/-- A row that a change of the metadata makes one of the seed. -/
def Kept (computeHash : String → String) (table : String → Option SkillRow) (seed : SkillSeed) :
    Prop :=
  ∃ row, table seed.id = some row ∧ row.contentHash = computeHash seed.skillMd ∧
    row.requiresCapabilities = seed.requiresCapabilities ∧ row.skillMd = seed.skillMd

/-- What holds of the table while a read is at a phase. -/
def Progress (computeHash : String → String) (seeds : List SkillSeed) (s : Isolate) : Phase → Prop
  | .selecting seed rest | .inserting seed rest => s.initialized = true ∧
    ∃ done, seeds = done ++ seed :: rest ∧ ∀ d ∈ done, Stored computeHash s.table d
  | .updating seed rest => s.initialized = true ∧ Kept computeHash s.table seed ∧
    ∃ done, seeds = done ++ seed :: rest ∧ ∀ d ∈ done, Stored computeHash s.table d
  | .reading => s.initialized = true
  | .returned => s.initialized = true ∧ ∀ seed ∈ seeds, Stored computeHash s.table seed
  | _ => True

/-- A phase whose statement writes to the table. -/
def Phase.Writing : Phase → Prop
  | .updating _ _ | .inserting _ _ => True
  | _ => False

structure Inv (computeHash : String → String) (seeds : List SkillSeed)
    (table : String → Option SkillRow) (s : Isolate) : Prop where
  rows : ∀ seed ∈ seeds, s.table seed.id = table seed.id ∨ Stored computeHash s.table seed
  others : ∀ id, (∀ seed ∈ seeds, seed.id ≠ id) → s.table id = table id
  progress : ∀ i, Progress computeHash seeds s (s.reads i)
  flagged : s.initialized = true →
    (∃ i, (s.reads i).Seeding) ∨ ∀ seed ∈ seeds, Stored computeHash s.table seed
  quiet : ∀ i, s.reads i = .returned → ∀ j, ¬(s.reads j).Writing

/-- What every write keeps of the table. -/
def Keeps (computeHash : String → String) (seeds : List SkillSeed)
    (before after : String → Option SkillRow) : Prop :=
  ∀ seed ∈ seeds, (Stored computeHash before seed → Stored computeHash after seed) ∧
    (Kept computeHash before seed → Kept computeHash after seed)

variable {phase : Phase}

theorem Progress.mono {s' : Isolate} (h : Progress computeHash seeds s phase)
    (hkeep : Keeps computeHash seeds s.table s'.table)
    (hinit : s.initialized = true → s'.initialized = true) :
    Progress computeHash seeds s' phase := by
  have hdone : ∀ {done : List SkillSeed} {seed rest}, seeds = done ++ seed :: rest →
      (∀ d ∈ done, Stored computeHash s.table d) → ∀ d ∈ done, Stored computeHash s'.table d :=
    fun hsplit hall d hd => (hkeep d (hsplit ▸ mem_append_left _ hd)).1 (hall d hd)
  cases phase with
  | selecting seed rest | inserting seed rest =>
    obtain ⟨h, done, hsplit, hall⟩ := h
    exact ⟨hinit h, done, hsplit, hdone hsplit hall⟩
  | updating seed rest =>
    obtain ⟨h, hkept, done, hsplit, hall⟩ := h
    have hmem : seed ∈ seeds := hsplit ▸ mem_append_right _ mem_cons_self
    exact ⟨hinit h, (hkeep seed hmem).2 hkept, done, hsplit, hdone hsplit hall⟩
  | reading => exact hinit h
  | returned => exact ⟨hinit h.1, fun seed hseed => (hkeep seed hseed).1 (h.2 seed hseed)⟩
  | idle | creating | failed => trivial

theorem Inv.goOn (h : Inv computeHash seeds table s) {s' : Isolate} {i : Nat}
    (hreads : s'.reads = Function.update s.reads i phase)
    (hkeep : Keeps computeHash seeds s.table s'.table)
    (hinit : s.initialized = true → s'.initialized = true)
    (hrows : ∀ seed ∈ seeds, s'.table seed.id = table seed.id ∨ Stored computeHash s'.table seed)
    (hothers : ∀ id, (∀ seed ∈ seeds, seed.id ≠ id) → s'.table id = table id)
    (hprogress : Progress computeHash seeds s' phase)
    (hflagged : s'.initialized = true → phase.Seeding ∨ (∃ j, j ≠ i ∧ (s.reads j).Seeding) ∨
      ∀ seed ∈ seeds, Stored computeHash s'.table seed)
    (hreturned : phase = .returned → ∀ j, ¬(s.reads j).Writing)
    (hwriting : phase.Writing → ∀ j, s.reads j ≠ .returned) : Inv computeHash seeds table s' := by
  refine ⟨hrows, hothers, fun j => ?_, fun hset => ?_, fun j hj k => ?_⟩
  · rw [hreads, update_apply]
    split_ifs
    · exact hprogress
    · exact (h.progress j).mono hkeep hinit
  · rcases hflagged hset with hseeding | ⟨j, hne, hseeding⟩ | hstored
    · exact .inl ⟨i, by rwa [hreads, update_self]⟩
    · exact .inl ⟨j, by rwa [hreads, update_of_ne hne]⟩
    · exact .inr hstored
  · rw [hreads, update_apply] at hj ⊢
    split_ifs at hj ⊢
    · rw [hj]
      exact id
    · exact fun hk => hwriting hk j hj
    · exact hreturned hj k
    · exact h.quiet j hj k

theorem Inv.move (h : Inv computeHash seeds table s) {i : Nat}
    (hprogress : Progress computeHash seeds s phase)
    (hflagged : phase.Seeding ∨ ¬(s.reads i).Seeding ∨
      ∀ seed ∈ seeds, Stored computeHash s.table seed)
    (hreturned : phase = .returned → ∀ j, ¬(s.reads j).Writing)
    (hwriting : phase.Writing → ∀ j, s.reads j ≠ .returned) :
    Inv computeHash seeds table (s.at i phase) := by
  have hprogress' : Progress computeHash seeds (s.at i phase) phase :=
    hprogress.mono (fun _ _ => ⟨id, id⟩) id
  refine h.goOn rfl (fun _ _ => ⟨id, id⟩) id h.rows h.others hprogress' (fun hset => ?_) hreturned
    hwriting
  rcases hflagged with hseeding | hidle | hstored
  · exact .inl hseeding
  · rcases h.flagged hset with ⟨j, hj⟩ | hstored
    · exact .inr (.inl ⟨j, fun heq => hidle (heq ▸ hj), hj⟩)
    · exact .inr (.inr hstored)
  · exact .inr (.inr hstored)

variable {rest done : List SkillSeed}

theorem next_progress {seed : SkillSeed} (hinit : s.initialized = true)
    (hsplit : seeds = done ++ seed :: rest) (hall : ∀ d ∈ done, Stored computeHash s.table d)
    (hseed : Stored computeHash s.table seed) :
    Progress computeHash seeds s (next rest) ∧
      ((next rest).Seeding ∨ ∀ seed ∈ seeds, Stored computeHash s.table seed) ∧
      next rest ≠ .returned ∧ ¬(next rest).Writing := by
  have hdone : ∀ d ∈ done ++ [seed], Stored computeHash s.table d := by
    intro d hd
    rcases mem_append.mp hd with hd | hd
    · exact hall d hd
    · rwa [mem_singleton.mp hd]
  cases rest with
  | nil => exact ⟨hinit, .inr (hsplit ▸ hdone), Phase.noConfusion, id⟩
  | cons seed' rest =>
    exact ⟨⟨hinit, done ++ [seed], by rw [hsplit, append_assoc]; rfl, hdone⟩, .inl trivial,
      Phase.noConfusion, id⟩

theorem Inv.write (h : Inv computeHash seeds table s)
    (hsingle : ∀ seed ∈ seeds, ∀ seed' ∈ seeds, seed.id = seed'.id → seed = seed') {i : Nat}
    {seed : SkillSeed} (hinit : s.initialized = true)
    (hsplit : seeds = done ++ seed :: rest) (hall : ∀ d ∈ done, Stored computeHash s.table d)
    {row : SkillRow} (hrow : Matches computeHash seed row) :
    Inv computeHash seeds table
      ({ s with table := Function.update s.table seed.id (some row) }.at i (next rest)) := by
  have hmem : seed ∈ seeds := hsplit ▸ mem_append_right _ mem_cons_self
  have hnew : Stored computeHash (Function.update s.table seed.id (some row)) seed :=
    ⟨row, update_self .., hrow⟩
  have hkeep : Keeps computeHash seeds s.table (Function.update s.table seed.id (some row)) := by
    intro d hd
    by_cases hid : d.id = seed.id
    · obtain rfl := hsingle d hd seed hmem hid
      exact ⟨fun _ => hnew, fun _ => ⟨row, update_self .., hrow.contentHash,
        hrow.requiresCapabilities, hrow.skillMd⟩⟩
    · unfold Stored Kept
      rw [update_of_ne hid]
      exact ⟨id, id⟩
  have hall' : ∀ d ∈ done, Stored computeHash (Function.update s.table seed.id (some row)) d :=
    fun d hd => (hkeep d (hsplit ▸ mem_append_left _ hd)).1 (hall d hd)
  obtain ⟨hprogress, hflagged, hreturned, hwriting⟩ :=
    @next_progress computeHash seeds
      { s with table := Function.update s.table seed.id (some row) } _ _ _ hinit hsplit hall' hnew
  refine h.goOn rfl hkeep id (fun d hd => ?_) (fun id hother => ?_)
    (hprogress.mono (fun _ _ => ⟨id, id⟩) id) (fun _ => hflagged.imp_right .inr)
    (fun heq => absurd heq hreturned) (fun hw => absurd hw hwriting)
  · by_cases hid : d.id = seed.id
    · obtain rfl := hsingle d hd seed hmem hid
      exact .inr hnew
    · exact (h.rows d hd).imp (update_of_ne hid ..).trans (hkeep d hd).1
  · exact (update_of_ne (hother seed hmem).symm ..).trans (h.others id hother)

theorem Inv.step (h : Inv computeHash seeds table s)
    (hsingle : ∀ seed ∈ seeds, ∀ seed' ∈ seeds, seed.id = seed'.id → seed = seed')
    (hfresh : Refreshable computeHash seeds table) {label : Label} (hcalm : Calm s label) :
    Inv computeHash seeds table (step computeHash seeds s label) := by
  cases label with
  | start i =>
    unfold D1Registry.step
    simp only
    split_ifs with hidle hset
    · exact h.move hset (.inr (.inl (by rw [hidle]; exact id))) (fun heq => by cases heq) False.elim
    · exact h.move trivial (.inr (.inl (by rw [hidle]; exact id))) (fun heq => by cases heq)
        False.elim
    · exact h
  | fail i =>
    have hmove : Inv computeHash seeds table (s.at i .failed) :=
      h.move trivial (.inr (.inl hcalm)) (fun heq => by cases heq) False.elim
    unfold D1Registry.step
    simp only
    split
    · exact h
    · exact h
    · exact h
    · exact hmove
  | advance i now =>
    have hprogress := h.progress i
    unfold D1Registry.step
    simp only
    cases hphase : s.reads i with
    | creating =>
      have hset : Progress computeHash seeds ({ s with initialized := true }.at i (next seeds))
          (next seeds) ∧ ((next seeds).Seeding ∨ seeds = []) ∧ next seeds ≠ .returned ∧
            ¬(next seeds).Writing := by
        cases seeds with
        | nil => exact ⟨rfl, .inr rfl, Phase.noConfusion, id⟩
        | cons seed rest => exact ⟨⟨rfl, [], rfl, fun d hd => by cases hd⟩, .inl trivial,
            Phase.noConfusion, id⟩
      refine h.goOn rfl (fun _ _ => ⟨id, id⟩) (fun _ => rfl) h.rows h.others hset.1 (fun _ => ?_)
        (fun heq => absurd heq hset.2.2.1) (fun hw => absurd hw hset.2.2.2)
      exact hset.2.1.imp_right fun hnil => .inr fun seed hseed => by rw [hnil] at hseed; cases hseed
    | selecting seed rest =>
      rw [hphase] at hprogress
      obtain ⟨hinit, done, hsplit, hall⟩ := hprogress
      have hmem : seed ∈ seeds := hsplit ▸ mem_append_right _ mem_cons_self
      change Inv computeHash seeds table
        (s.at i (decideSeed computeHash (s.table seed.id) seed rest))
      have hnext : Stored computeHash s.table seed →
          Inv computeHash seeds table (s.at i (next rest)) := by
        intro hstored
        obtain ⟨hnext, hseeding, hreturned, hwriting⟩ := next_progress hinit hsplit hall hstored
        exact h.move hnext (hseeding.imp_right .inr) (fun heq => absurd heq hreturned)
          (fun hw => absurd hw hwriting)
      have hnone : ¬Stored computeHash s.table seed → ∀ j, s.reads j ≠ .returned := by
        intro hmissing j hj
        have hreturned := h.progress j
        rw [hj] at hreturned
        exact hmissing (hreturned.2 seed hmem)
      cases hrow : s.table seed.id with
      | none =>
        rw [decideSeed]
        refine h.move ⟨hinit, done, hsplit, hall⟩ (.inl trivial) (fun heq => by cases heq)
          fun _ => hnone ?_
        rintro ⟨row, hstored, -⟩
        rw [hrow] at hstored
        cases hstored
      | some row =>
        have hkept : row.contentHash = computeHash seed.skillMd →
            row.skillMd = seed.skillMd ∧ row.requiresCapabilities = seed.requiresCapabilities ∧
              (row.version = seed.version →
                row.name = seed.name ∧ row.description = seed.description) := by
          intro hhash
          rcases h.rows seed hmem with hold | ⟨row', hrow', hmatches⟩
          · exact hfresh seed hmem row (hold ▸ hrow) hhash
          · obtain rfl := Option.some.inj (hrow.symm.trans hrow')
            exact ⟨hmatches.skillMd, hmatches.requiresCapabilities, fun _ =>
              ⟨hmatches.name, hmatches.description⟩⟩
        have hmissing : ¬Matches computeHash seed row → ∀ j, s.reads j ≠ .returned := by
          refine fun hno => hnone ?_
          rintro ⟨row', hrow', hmatches⟩
          obtain rfl := Option.some.inj (hrow.symm.trans hrow')
          exact hno hmatches
        rw [decideSeed]
        split_ifs with hhash hversion
        · obtain ⟨hskill, hrequires, hmeta⟩ := hkept hhash
          obtain ⟨hname, hdescription⟩ := hmeta hversion
          exact hnext ⟨row, hrow, hname, hdescription, hversion, hhash, hrequires, hskill⟩
        · obtain ⟨hskill, hrequires, -⟩ := hkept hhash
          exact h.move ⟨hinit, ⟨row, hrow, hhash, hrequires, hskill⟩, done, hsplit, hall⟩
            (.inl trivial) (fun heq => by cases heq)
            fun _ => hmissing fun hmatches => hversion hmatches.version
        · exact h.move ⟨hinit, done, hsplit, hall⟩ (.inl trivial) (fun heq => by cases heq)
            fun _ => hmissing fun hmatches => hhash hmatches.contentHash
    | updating seed rest =>
      rw [hphase] at hprogress
      obtain ⟨hinit, ⟨row, hrow, hhash, hrequires, hskill⟩, done, hsplit, hall⟩ := hprogress
      simp only [hrow, Option.map_some]
      exact h.write hsingle hinit hsplit hall ⟨rfl, rfl, rfl, hhash, hrequires, hskill⟩
    | inserting seed rest =>
      rw [hphase] at hprogress
      obtain ⟨hinit, done, hsplit, hall⟩ := hprogress
      exact h.write hsingle hinit hsplit hall ⟨rfl, rfl, rfl, rfl, rfl, rfl⟩
    | reading =>
      rw [hphase] at hprogress
      have hidle := hcalm hphase
      have hstored := (h.flagged hprogress).resolve_left fun ⟨j, hj⟩ => hidle j hj
      refine h.move ⟨hprogress, hstored⟩ (.inr (.inr hstored)) (fun _ j hw => hidle j ?_) False.elim
      cases hj : s.reads j <;> rw [hj] at hw <;> first | exact hw.elim | trivial
    | idle | returned | failed => exact h

/-- Seeding converges in every run in which no statement of it fails and no read overtakes it, from
a table whose rows agree with the seeds where they are not refreshed. -/
theorem seedingLaw_of_calm
    (hsingle : ∀ seed ∈ seeds, ∀ seed' ∈ seeds, seed.id = seed'.id → seed = seed')
    (hfresh : Refreshable computeHash seeds table) (labels : List Label)
    (hcalm : Run.Allowed Calm (step computeHash seeds) { table } labels) :
    ∀ before after, labels = before ++ after →
      SeedingLaw computeHash seeds table (Run.run (step computeHash seeds) { table } before) := by
  intro before after hsplit
  have hstart : Inv computeHash seeds table { table } := by
    refine ⟨fun _ _ => .inl rfl, fun _ _ => rfl, fun _ => trivial, fun hset => ?_, fun _ hi => ?_⟩
    · cases hset
    · cases hi
  have h := Run.invariant_of_allowed hstart
    (fun _ _ h hcalm => h.step hsingle hfresh hcalm) hcalm before after hsplit
  generalize Run.run (step computeHash seeds) { table } before = s at h ⊢
  refine ⟨fun i hi => ?_, fun i hi label => ?_, h.others⟩
  · have hprogress := h.progress i
    rw [hi] at hprogress
    exact hprogress.2
  · have hquiet := h.quiet i hi
    cases label with
    | start j =>
      unfold step
      simp only
      split_ifs <;> rfl
    | fail j =>
      unfold step
      simp only
      split <;> rfl
    | advance j now =>
      have hj := hquiet j
      unfold step
      simp only
      cases hphase : s.reads j with
      | updating seed rest | inserting seed rest =>
        rw [hphase] at hj
        exact absurd trivial hj
      | _ => rfl

def greeting : SkillSeed := ⟨"hello", "Hello", "Greets.", "1.0.0", [], "# Hello"⟩

theorem seedingLaw_greeting :
    SeedingLaw id [greeting] (fun _ => none)
      (Run.run (step id [greeting]) { table := fun _ => none }
        [.start 0, .advance 0 "t", .advance 0 "t", .advance 0 "t", .advance 0 "t"]) := by
  refine seedingLaw_of_calm (fun a ha b hb _ => ?_) (fun a ha row hrow => by cases hrow) _ ?_ _ []
    (append_nil _).symm
  · rw [mem_singleton.mp ha, mem_singleton.mp hb]
  · refine Run.allowed_cons trivial <| Run.allowed_cons (fun h => absurd h (by decide)) <|
      Run.allowed_cons (fun h => absurd h (by decide)) <|
      Run.allowed_cons (fun h => absurd h (by decide)) <|
      Run.allowed_cons (fun _ j => ?_) <| Run.allowed_nil _ _ _
    cases j <;> exact id

/-- A statement fails behind the flag: the next read returns, and the seed is not there. -/
theorem failed_not_seedingLaw :
    ¬SeedingLaw id [greeting] (fun _ => none)
      (Run.run (step id [greeting]) { table := fun _ => none }
        [.start 0, .advance 0 "t", .fail 0, .start 1, .advance 1 "t"]) := by
  intro hlaw
  obtain ⟨row, hrow, -⟩ := hlaw.stored 1 rfl greeting (mem_singleton_self _)
  cases hrow

end CrabbyKit.Skills.D1Registry
