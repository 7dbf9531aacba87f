import CrabbyKit.Files.Edit

/-!
# Copies and moves of a file

`copy` and `move` of `service.ts`, behind the check of their token, and `renameFile` of
`ui-bridge.ts`. Each step on the bucket may fail, and what has failed may have taken effect.
-/

namespace CrabbyKit.Files.Moves

open Function

/-- How a call that changes the bucket ends: it is done, it fails, or it fails after its effect. -/
inductive Fault
  | none | before | after
  deriving DecidableEq, Repr

def Fault.rejects (fault : Fault) : Bool := fault ≠ .none

def Fault.effect (fault : Fault) : Bool := fault ≠ .before

/-- The bucket after a call. -/
def Fault.apply (fault : Fault) (change : Objects → Objects) (bucket : Objects) : Objects :=
  if fault.effect then change bucket else bucket

/-- How the steps of an operation end, and the message of those that fail. -/
structure Faults where
  head : Bool := false
  get : Bool := false
  arrayBuffer : Bool := false
  put : Fault := .none
  delete : Fault := .none
  message : String := ""

/-- What becomes of the object: the message of a failed step, or whether there was one. -/
abbrev Carried := Except String Bool

/-- Get the object and put it under the other key; a move deletes the first key then. -/
def carry (faults : Faults) (moves : Bool) (srcKey dstKey : String) (bucket : Objects) :
    Objects × Carried :=
  if faults.get then (bucket, .error faults.message)
  else
    match bucket srcKey with
    | none => (bucket, .ok false)
    | some content =>
      if faults.arrayBuffer then (bucket, .error faults.message)
      else
        let put := faults.put.apply (fun b => Function.update b dstKey (some content)) bucket
        if faults.put.rejects then (put, .error faults.message)
        else if moves then
          let deleted := faults.delete.apply (fun b => Function.update b srcKey none) put
          (deleted, if faults.delete.rejects then .error faults.message else .ok true)
        else (put, .ok true)

structure TransferDetails where
  error : Option String := none
  message : Option String := none
  source : Option String := none
  destination : Option String := none
  deriving DecidableEq, Repr

structure TransferResult where
  text : String
  details : TransferDetails
  deriving DecidableEq, Repr

/-- `copy` and `move`, which differ in a step and in their words. -/
def transfer (moves : Bool) (done doing failed : String) (faults : Faults)
    (storageNamespace : String) (bucket : Objects) (source destination : String) :
    TransferResult × Objects :=
  match validatePath source with
  | .error error => (⟨"Error: source path: " ++ error, { error := some "invalid_path" }⟩, bucket)
  | .ok src =>
    match validatePath destination with
    | .error error =>
      (⟨"Error: destination path: " ++ error, { error := some "invalid_path" }⟩, bucket)
    | .ok dst =>
      let carried := carry faults moves (toR2Key storageNamespace src)
        (toR2Key storageNamespace dst) bucket
      match carried.2 with
      | .error message =>
        (⟨"Error " ++ doing ++ " file: " ++ message,
          { error := some failed, message := some message }⟩, carried.1)
      | .ok false =>
        (⟨"Error: source file not found: " ++ src, { error := some "not_found" }⟩, carried.1)
      | .ok true =>
        (⟨done ++ " " ++ src ++ " → " ++ dst, { source := some src, destination := some dst }⟩,
          carried.1)

def copy : Faults → String → Objects → String → String → TransferResult × Objects :=
  transfer false "Copied" "copying" "copy_error"

def move : Faults → String → Objects → String → String → TransferResult × Objects :=
  transfer true "Moved" "moving" "move_error"

/-- `renameFile`: an error is thrown, or the normalized paths are returned. -/
def renameFile (faults : Faults) (storagePrefix : String) (bucket : Objects)
    (oldPath newPath : String) : Except String (String × String) × Objects :=
  match validatePath oldPath with
  | .error error => (.error ("source: " ++ error), bucket)
  | .ok src =>
    match validatePath newPath with
    | .error error => (.error ("destination: " ++ error), bucket)
    | .ok dst =>
      let srcKey := toR2Key storagePrefix src
      let dstKey := toR2Key storagePrefix dst
      if srcKey = dstKey then (.ok (src, dst), bucket)
      else if faults.head then (.error faults.message, bucket)
      else if (bucket dstKey).isSome then
        (.error ("Destination already exists: " ++ dst), bucket)
      else
        let carried := carry faults true srcKey dstKey bucket
        match carried.2 with
        | .error message => (.error message, carried.1)
        | .ok false => (.error ("Source file not found: " ++ src), carried.1)
        | .ok true => (.ok (src, dst), carried.1)

structure Keeps (moves : Bool) (srcKey dstKey : String) (bucket after : Objects) (failed : Bool) :
    Prop where
  /-- Every other object is unchanged. -/
  frame : ∀ key, key ≠ srcKey → key ≠ dstKey → after key = bucket key
  /-- The content has arrived. -/
  arrived : failed = false → ∀ content, bucket srcKey = some content → after dstKey = some content
  /-- After a copy it is at its source too, and after a move exactly when there is one key. -/
  source : failed = false → ∀ content, bucket srcKey = some content →
    if moves && srcKey ≠ dstKey then after srcKey = none else after srcKey = some content
  /-- After an error it is at its source or its destination. -/
  available : failed = true → ∀ content, bucket srcKey = some content →
    after srcKey = some content ∨ after dstKey = some content

def DeletesItself (faults : Faults) (srcKey dstKey : String) (bucket : Objects) : Prop :=
  srcKey = dstKey ∧ (bucket srcKey).isSome ∧ faults.get = false ∧ faults.arrayBuffer = false ∧
    faults.put = .none ∧ faults.delete.effect = true

/-- Whether the operation reports an error. -/
def Carried.failed (carried : Carried) : Bool := carried.toOption ≠ some true

theorem keeps_refl (moves : Bool) (srcKey dstKey : String) (bucket : Objects) :
    Keeps moves srcKey dstKey bucket bucket true where
  frame _ _ _ := rfl
  arrived failed := by cases failed
  source failed := by cases failed
  available _ _ found := .inl found

variable {srcKey dstKey : String} {bucket : Objects} {content : List UInt8}

theorem keeps_put {moves : Bool}
    (found : bucket srcKey = some content) {failed : Bool} (done : failed = false → moves = false) :
    Keeps moves srcKey dstKey bucket (Function.update bucket dstKey (some content)) failed where
  frame key _ other := update_of_ne other _ _
  arrived _ content' found' := by
    rw [update_self, ← found, found']
  source ended content' found' := by
    rw [done ended, if_neg (by simp), ← found']
    by_cases same : srcKey = dstKey
    · rw [same, update_self, ← found, same]
    · rw [update_of_ne same]
  available _ content' found' := by
    right
    rw [update_self, ← found, found']

theorem keeps_delete
    (found : bucket srcKey = some content) (other : srcKey ≠ dstKey) (failed : Bool) :
    Keeps true srcKey dstKey bucket
      (Function.update (Function.update bucket dstKey (some content)) srcKey none) failed where
  frame key src dst := by
    rw [update_of_ne src, update_of_ne dst]
  arrived _ content' found' := by
    rw [update_of_ne other.symm, update_self, ← found, found']
  source _ content' found' := by
    rw [if_pos (by simpa using other), update_self]
  available _ content' found' := by
    right
    rw [update_of_ne other.symm, update_self, ← found, found']

theorem keeps_carry (faults : Faults) (moves : Bool) (srcKey dstKey : String) (bucket : Objects)
    (other : moves = true → ¬ DeletesItself faults srcKey dstKey bucket) :
    Keeps moves srcKey dstKey bucket (carry faults moves srcKey dstKey bucket).1
      (carry faults moves srcKey dstKey bucket).2.failed := by
  unfold carry
  cases get : faults.get with
  | true => exact keeps_refl ..
  | false =>
    cases found : bucket srcKey with
    | none => exact keeps_refl ..
    | some content =>
      cases buffer : faults.arrayBuffer with
      | true => exact keeps_refl ..
      | false =>
        cases put : faults.put with
        | before => exact keeps_refl ..
        | after => exact keeps_put found (by rintro ⟨⟩)
        | none =>
          cases moves with
          | false => exact keeps_put found fun _ => rfl
          | true =>
            cases delete : faults.delete with
            | before => exact keeps_put found (by rintro ⟨⟩)
            | none =>
              refine keeps_delete found (fun same => other rfl ?_) false
              exact ⟨same, by rw [found]; rfl, get, buffer, put, by rw [delete]; rfl⟩
            | after =>
              refine keeps_delete found (fun same => other rfl ?_) true
              exact ⟨same, by rw [found]; rfl, get, buffer, put, by rw [delete]; rfl⟩

theorem not_keeps_carry {faults : Faults} (deletes : DeletesItself faults srcKey dstKey bucket) :
    ¬ Keeps true srcKey dstKey bucket (carry faults true srcKey dstKey bucket).1
      (carry faults true srcKey dstKey bucket).2.failed := by
  obtain ⟨rfl, found, get, buffer, put, effect⟩ := deletes
  obtain ⟨content, found⟩ := Option.isSome_iff_exists.mp found
  have lost : (carry faults true srcKey srcKey bucket).1 srcKey = none := by
    simp [carry, get, found, buffer, put, Fault.apply, Fault.rejects, effect]
  intro keeps
  cases failed : (carry faults true srcKey srcKey bucket).2.failed with
  | false =>
    have arrived := keeps.arrived failed content found
    rw [lost] at arrived
    cases arrived
  | true =>
    rcases keeps.available failed content found with here | here
    all_goals
      rw [lost] at here
      cases here

theorem transfer_eq {source destination src dst : String} (hsrc : validatePath source = .ok src)
    (hdst : validatePath destination = .ok dst) (moves : Bool) (done doing failed : String)
    (faults : Faults) (storageNamespace : String) (bucket : Objects) :
    let carried := carry faults moves (toR2Key storageNamespace src)
      (toR2Key storageNamespace dst) bucket
    let out := transfer moves done doing failed faults storageNamespace bucket source destination
    out.2 = carried.1 ∧ out.1.details.error.isSome = carried.2.failed := by
  simp only [transfer, hsrc, hdst]
  obtain ⟨after, message | _ | _⟩ := carry faults moves (toR2Key storageNamespace src)
    (toR2Key storageNamespace dst) bucket
  all_goals exact ⟨rfl, rfl⟩

theorem keeps_renameFile {storagePrefix oldPath newPath src dst : String}
    (hsrc : validatePath oldPath = .ok src) (hdst : validatePath newPath = .ok dst)
    (faults : Faults) (bucket : Objects) :
    let out := renameFile faults storagePrefix bucket oldPath newPath
    Keeps true (toR2Key storagePrefix src) (toR2Key storagePrefix dst) bucket out.2
      (!out.1.isOk) := by
  simp only [renameFile, hsrc, hdst]
  by_cases same : toR2Key storagePrefix src = toR2Key storagePrefix dst
  · rw [if_pos same, same]
    refine ⟨fun _ _ _ => rfl, fun _ _ found => found, fun _ _ found => ?_, fun failed => ?_⟩
    · rwa [if_neg (by simp)]
    · cases failed
  rw [if_neg same]
  cases faults.head with
  | true => exact keeps_refl ..
  | false =>
    cases bucket (toR2Key storagePrefix dst) with
    | some _ => exact keeps_refl ..
    | none =>
      have keeps := keeps_carry faults true (toR2Key storagePrefix src)
        (toR2Key storagePrefix dst) bucket fun _ deletes => same deletes.1
      revert keeps
      obtain ⟨after, message | _ | _⟩ := carry faults true (toR2Key storagePrefix src)
        (toR2Key storagePrefix dst) bucket
      all_goals exact id

/-- Between two valid paths no operation loses a file. -/
structure NothingLost (faults : Faults) (storagePrefix : String) (bucket : Objects)
    (source destination src dst : String) : Prop where
  copies : Keeps false (toR2Key storagePrefix src) (toR2Key storagePrefix dst) bucket
    (copy faults storagePrefix bucket source destination).2
    (copy faults storagePrefix bucket source destination).1.details.error.isSome
  moves : Keeps true (toR2Key storagePrefix src) (toR2Key storagePrefix dst) bucket
    (move faults storagePrefix bucket source destination).2
    (move faults storagePrefix bucket source destination).1.details.error.isSome
  renames : Keeps true (toR2Key storagePrefix src) (toR2Key storagePrefix dst) bucket
    (renameFile faults storagePrefix bucket source destination).2
    (!(renameFile faults storagePrefix bucket source destination).1.isOk)

/-- Nothing is lost exactly when a move does not delete what it has put. -/
theorem nothingLost_iff {storagePrefix source destination src dst : String}
    (hsrc : validatePath source = .ok src) (hdst : validatePath destination = .ok dst)
    (faults : Faults) (bucket : Objects) :
    NothingLost faults storagePrefix bucket source destination src dst ↔
      ¬ DeletesItself faults (toR2Key storagePrefix src) (toR2Key storagePrefix dst) bucket := by
  obtain ⟨copied, copyFailed⟩ := transfer_eq hsrc hdst false "Copied" "copying" "copy_error"
    faults storagePrefix bucket
  obtain ⟨moved, moveFailed⟩ := transfer_eq hsrc hdst true "Moved" "moving" "move_error"
    faults storagePrefix bucket
  constructor
  · intro law deletes
    have moves := law.moves
    rw [move, moved, moveFailed] at moves
    exact not_keeps_carry deletes moves
  · intro other
    refine ⟨?_, ?_, keeps_renameFile hsrc hdst faults bucket⟩
    · rw [copy, copied, copyFailed]
      exact keeps_carry _ _ _ _ _ (by rintro ⟨⟩)
    · rw [move, moved, moveFailed]
      exact keeps_carry _ _ _ _ _ fun _ => other

/-- Moving `./a` to `b` without a fault. -/
theorem nothingLost_example :
    NothingLost {} "agent" (fun key => if key = "agent/a" then some [104, 105] else none)
      "./a" "b" "a" "b" :=
  (nothingLost_iff (by decide) (by decide) {} _).mpr fun deletes => absurd deletes.1 (by decide)

/-- Moving `a` to `./a` is a success, and the file is gone. -/
theorem move_to_itself_loses :
    let bucket : Objects := fun key => if key = "agent/a" then some [104, 105] else none
    let out := move {} "agent" bucket "a" "./a"
    validatePath "a" = .ok "a" ∧ validatePath "./a" = .ok "a" ∧
      out.1 = ⟨"Moved a → a", { source := some "a", destination := some "a" }⟩ ∧
      bucket "agent/a" = some [104, 105] ∧ out.2 "agent/a" = none := by
  decide

end CrabbyKit.Files.Moves
