import MatrixServer.Application.AnimationParams
import MatrixServer.Foundation.KeyedWrites

/-!
Saving the values of one parameter store and applying them to another.
An update writes the one field that the type of the record selects, so of all the
updates of a key only the last one shows, and it shows whatever was there before.
-/

namespace MatrixServer
namespace AnimationParams

inductive ParamCall where
  | registerFloat (fields : Uninitialised) (key label : String)
      (min max def_ step : FloatBits) (group : String)
  | registerInt (fields : Uninitialised) (key label : String) (min max def_ : Int)
      (group : String)
  | registerBool (fields : Uninitialised) (key label : String) (def_ : Bool) (group : String)
  | registerEnum (fields : Uninitialised) (key label : String) (options : List String)
      (def_ group : String)
  | setFloat (key : String) (value : FloatBits)
  | setInt (key : String) (value : Int)
  | setBool (key : String) (value : Bool)
  | setString (key value : String)
  | applyUpdate (update : AppParamUpdate)

def call (p : AnimationParams) : ParamCall → AnimationParams
  | .registerFloat fields key label min max def_ step group =>
      p.registerFloat fields key label min max def_ step group
  | .registerInt fields key label min max def_ group =>
      p.registerInt fields key label min max def_ group
  | .registerBool fields key label def_ group => p.registerBool fields key label def_ group
  | .registerEnum fields key label options def_ group =>
      p.registerEnum fields key label options def_ group
  | .setFloat key value => p.setFloat key value
  | .setInt key value => p.setInt key value
  | .setBool key value => p.setBool key value
  | .setString key value => p.setString key value
  | .applyUpdate update => p.applyUpdate update

/-- The store that calls on a new one leave behind. -/
def afterCalls (calls : List ParamCall) : AnimationParams := calls.foldl call new

def paramTypes : List String := ["float", "int", "bool", "enum"]

/-- Every record has one of the four types. -/
def Typed (p : AnimationParams) : Prop :=
  ∀ key type, p.typeOf key = some type → type ∈ paramTypes

theorem find_assign (p : AnimationParams) (key other : String) (record : ParamRecord) :
    (p.assign key record).find other = if other = key then some record else p.find other :=
  OrderedMap.find_put key record p.params_ other

theorem find_setField (p : AnimationParams) (key other : String) (f : ParamRecord → ParamRecord) :
    (p.setField key f).find other = if other = key then (p.find key).map f else p.find other :=
  OrderedMap.find_update p.params_ key other f

theorem find_applyUpdate (p : AnimationParams) (update : AppParamUpdate) (key : String) :
    (p.applyUpdate update).find key =
      if key = update.key then (p.find update.key).map (applyToRecord update) else p.find key :=
  OrderedMap.find_update p.params_ update.key key (applyToRecord update)

theorem getField_of_find {Value : Type} {p : AnimationParams} {key : String} {record : ParamRecord}
    (h : p.find key = some record) (field : ParamRecord → Value) (unknown : Value) :
    p.getField key field unknown = field record := by
  rw [getField, h, Option.map_some, Option.getD_some]

theorem applyUpdate_of_unknown {p : AnimationParams} {update : AppParamUpdate}
    (h : p.find update.key = none) : p.applyUpdate update = p := by
  cases p with
  | mk params_ ordered =>
      have hsame := OrderedMap.update_of_not_found h (applyToRecord update)
      simp only [applyUpdate, mk.injEq]
      exact hsame

theorem typeOf_setField {f : ParamRecord → ParamRecord}
    (hf : ∀ record, (f record).def_ = record.def_) (p : AnimationParams) (key : String) :
    (p.setField key f).typeOf = p.typeOf := by
  funext other
  simp only [typeOf, find_setField]
  split
  · rename_i heq
    simp [heq, Function.comp_def, hf]
  · rfl

theorem Typed.assign {p : AnimationParams} (hp : p.Typed) (key : String) {record : ParamRecord}
    (h : record.def_.type ∈ paramTypes) : (p.assign key record).Typed := by
  intro other type htype
  simp only [typeOf, find_assign] at htype
  split at htype
  · cases htype
    exact h
  · exact hp other type htype

theorem Typed.setField {p : AnimationParams} (hp : p.Typed) (key : String)
    (f : ParamRecord → ParamRecord) (hf : ∀ record, (f record).def_ = record.def_) :
    (p.setField key f).Typed := by
  intro other type htype
  rw [typeOf_setField hf] at htype
  exact hp other type htype

section
variable (update : AppParamUpdate) (record : ParamRecord)

@[simp] theorem applyToRecord_def : (applyToRecord update record).def_ = record.def_ := by
  simp only [applyToRecord]
  split
  · rfl
  · split
    · rfl
    · split
      · rfl
      · split <;> rfl

theorem applyToRecord_overwrites (other : AppParamUpdate) :
    applyToRecord update (applyToRecord other record) = applyToRecord update record := by
  grind [applyToRecord]

/-- What is read back of a record is what was saved, if the two have one type. -/
theorem recordValue_applyToRecord {saved : ParamRecord} (key : String)
    (h : record.def_.type = saved.def_.type) :
    recordValue key (applyToRecord (recordValue key saved) record) = recordValue key saved := by
  grind [applyToRecord, recordValue]

end

theorem Typed.call {p : AnimationParams} (hp : p.Typed) (c : ParamCall) : (p.call c).Typed := by
  cases c with
  | registerFloat fields key label min max def_ step group =>
      exact hp.assign key (by simp [localRecord, paramTypes])
  | registerInt fields key label min max def_ group =>
      exact hp.assign key (by simp [localRecord, paramTypes])
  | registerBool fields key label def_ group =>
      exact hp.assign key (by simp [localRecord, paramTypes])
  | registerEnum fields key label options def_ group =>
      exact hp.assign key (by simp [localRecord, paramTypes])
  | setFloat key value =>
      exact hp.setField key (fun record => { record with floatVal := value }) fun _ => rfl
  | setInt key value =>
      exact hp.setField key (fun record => { record with intVal := value }) fun _ => rfl
  | setBool key value =>
      exact hp.setField key (fun record => { record with boolVal := value }) fun _ => rfl
  | setString key value =>
      exact hp.setField key (fun record => { record with stringVal := value }) fun _ => rfl
  | applyUpdate update =>
      exact hp.setField update.key (applyToRecord update) (applyToRecord_def update)

theorem typed_afterCalls (calls : List ParamCall) : (afterCalls calls).Typed := by
  induction calls using List.reverseRecOn with
  | nil =>
      intro key type htype
      cases htype
  | append_singleton calls c ih =>
      rw [afterCalls, List.foldl_append]
      exact ih.call c

theorem toSchema_applyUpdate (p : AnimationParams) (update : AppParamUpdate) (appName : String) :
    (p.applyUpdate update).toSchema appName = p.toSchema appName := by
  simp only [toSchema, applyUpdate, List.map_map, AppParamSchema.mk.injEq, true_and]
  apply List.map_congr_left
  intro entry _
  simp only [Function.comp_apply]
  split
  · exact applyToRecord_def update entry.2
  · rfl

theorem toSchema_applyUpdates (p : AnimationParams) (updates : List AppParamUpdate)
    (appName : String) : (updates.foldl applyUpdate p).toSchema appName = p.toSchema appName := by
  induction updates generalizing p with
  | nil => rfl
  | cons update updates ih => rw [List.foldl_cons, ih, toSchema_applyUpdate]

/-- Of the updates of a key the last one counts. -/
theorem find_applyUpdates (p : AnimationParams) (updates : List AppParamUpdate) (key : String) :
    (updates.foldl applyUpdate p).find key =
      (KeyedWrites.lastFor AppParamUpdate.key key updates).elim (p.find key) fun update =>
        (p.find key).map (applyToRecord update) := by
  refine KeyedWrites.foldl_view AppParamUpdate.key applyUpdate (fun p => p.find key)
    (fun update cell => cell.map (applyToRecord update)) (fun _ => True)
    (fun _ _ _ => trivial) ?_ ?_ ?_ updates trivial
  · intro p update _ hkey
    simp only [find_applyUpdate, hkey, if_true]
  · intro p update _ hkey
    simp only [find_applyUpdate, if_neg (Ne.symm hkey)]
  · intro update other cell
    cases cell with
    | none => rfl
    | some record => exact congrArg some (applyToRecord_overwrites update record other)

theorem key_recordValue (key : String) (record : ParamRecord) :
    (recordValue key record).key = key := by
  grind [recordValue]

/-- The saved values hold one update for each key. -/
theorem mem_toValues (p : AnimationParams) (name : String) (update : AppParamUpdate) :
    update ∈ (p.toValues name).values ↔
      ∃ record, p.find update.key = some record ∧ update = recordValue update.key record := by
  refine Iff.trans List.mem_map ⟨?_, ?_⟩
  · rintro ⟨entry, hmem, rfl⟩
    rw [key_recordValue]
    exact ⟨entry.2, OrderedMap.Ordered.find_of_mem p.ordered hmem, rfl⟩
  · rintro ⟨record, hfind, heq⟩
    exact ⟨(update.key, record), OrderedMap.mem_of_find hfind, heq.symm⟩

/-- Stores that read the same under each key save the same values. -/
theorem toValues_eq {p q : AnimationParams} (name : String)
    (h : ∀ key, (q.find key).map (recordValue key) = (p.find key).map (recordValue key)) :
    q.toValues name = p.toValues name := by
  have hentries : q.params_.map (fun entry => (entry.1, recordValue entry.1 entry.2)) =
      p.params_.map fun entry => (entry.1, recordValue entry.1 entry.2) := by
    refine OrderedMap.Ordered.ext (List.pairwise_map.mpr q.ordered)
      (List.pairwise_map.mpr p.ordered) fun key => ?_
    rw [OrderedMap.find_map recordValue, OrderedMap.find_map recordValue]
    exact h key
  have hvalues := congrArg (List.map Prod.snd) hentries
  simp only [List.map_map, Function.comp_def] at hvalues
  simp only [toValues, hvalues]

/-- What a typed getter returns for a known key is the same of both stores. -/
inductive ReadsAlike (p q : AnimationParams) (key : String) : Prop where
  | float : p.typeOf key = some "float" → q.getFloat key = p.getFloat key → ReadsAlike p q key
  | int : p.typeOf key = some "int" → q.getInt key = p.getInt key → ReadsAlike p q key
  | bool : p.typeOf key = some "bool" → q.getBool key = p.getBool key → ReadsAlike p q key
  | enum : p.typeOf key = some "enum" → q.getString key = p.getString key → ReadsAlike p q key

theorem readsAlike_of_find {p q : AnimationParams} (hp : p.Typed) {key : String}
    {saved record : ParamRecord} (hsaved : p.find key = some saved)
    (hrecord : q.find key = some (applyToRecord (recordValue key saved) record))
    (htype : record.def_.type = saved.def_.type) : ReadsAlike p q key := by
  have htypeOf : p.typeOf key = some saved.def_.type := by simp [typeOf, hsaved]
  have hmem := hp key _ htypeOf
  simp only [paramTypes, List.mem_cons, List.not_mem_nil, or_false] at hmem
  rcases hmem with h | h | h | h
  · refine .float (h ▸ htypeOf) ?_
    rw [getFloat, getFloat, getField_of_find hrecord, getField_of_find hsaved]
    simp [applyToRecord, recordValue, htype, h]
  · refine .int (h ▸ htypeOf) ?_
    rw [getInt, getInt, getField_of_find hrecord, getField_of_find hsaved]
    simp [applyToRecord, recordValue, htype, h]
  · refine .bool (h ▸ htypeOf) ?_
    rw [getBool, getBool, getField_of_find hrecord, getField_of_find hsaved]
    simp [applyToRecord, recordValue, htype, h]
  · refine .enum (h ▸ htypeOf) ?_
    rw [getString, getString, getField_of_find hrecord, getField_of_find hsaved]
    simp [applyToRecord, recordValue, htype, h]

section
variable {p q : AnimationParams} {name : String} {updates : List AppParamUpdate}
  (htypes : ∀ key, q.typeOf key = p.typeOf key)
  (hsaves : ∀ update, update ∈ updates ↔ update ∈ (p.toValues name).values)
include htypes

theorem find_restored_of_unknown {key : String} (hsaved : p.find key = none) :
    (updates.foldl applyUpdate q).find key = none := by
  have hnone : q.find key = none := by
    simpa [typeOf, hsaved] using htypes key
  rw [find_applyUpdates, hnone]
  cases KeyedWrites.lastFor AppParamUpdate.key key updates with
  | none => rfl
  | some last => rfl

include hsaves

theorem find_restored_of_known {key : String} {saved : ParamRecord}
    (hsaved : p.find key = some saved) :
    ∃ record, record.def_.type = saved.def_.type ∧ (updates.foldl applyUpdate q).find key =
      some (applyToRecord (recordValue key saved) record) := by
  obtain ⟨record, hrecord, htype⟩ : ∃ record, q.find key = some record ∧
      record.def_.type = saved.def_.type := by
    simpa [typeOf, hsaved] using htypes key
  refine ⟨record, htype, ?_⟩
  have hmem : recordValue key saved ∈ updates := by
    rw [hsaves, mem_toValues, key_recordValue]
    exact ⟨saved, hsaved, rfl⟩
  rw [find_applyUpdates, hrecord]
  cases hlast : KeyedWrites.lastFor AppParamUpdate.key key updates with
  | none =>
      have hnone := (KeyedWrites.lastFor_eq_none _).mp hlast _ hmem
      exact absurd (key_recordValue key saved) hnone
  | some last =>
      obtain ⟨hlastMem, hkey⟩ := KeyedWrites.mem_of_lastFor _ hlast
      obtain ⟨other, hother, heq⟩ := (mem_toValues p name last).mp ((hsaves last).mp hlastMem)
      rw [hkey] at hother heq
      rw [hsaved] at hother
      cases hother
      rw [heq]
      rfl

theorem toValues_restored : (updates.foldl applyUpdate q).toValues name = p.toValues name := by
  apply toValues_eq
  intro key
  cases hsaved : p.find key with
  | none => rw [find_restored_of_unknown htypes hsaved]
  | some saved =>
      obtain ⟨record, htype, hfind⟩ := find_restored_of_known htypes hsaves hsaved
      rw [hfind, Option.map_some, Option.map_some, recordValue_applyToRecord record key htype]

end

/-- Presets: applying the saved values of a store, in any order and any number of times,
restores them in any store with the same keys and types. -/
theorem presets_restored (callsP callsQ : List ParamCall) (name : String)
    (updates : List AppParamUpdate)
    (htypes : ∀ key, (afterCalls callsQ).typeOf key = (afterCalls callsP).typeOf key)
    (hsaves : ∀ update, update ∈ updates ↔
      update ∈ ((afterCalls callsP).toValues name).values) :
    (updates.foldl applyUpdate (afterCalls callsQ)).toValues name =
        (afterCalls callsP).toValues name ∧
      (∀ key, ((afterCalls callsP).find key).isSome →
        ReadsAlike (afterCalls callsP) (updates.foldl applyUpdate (afterCalls callsQ)) key) ∧
      (∀ appName, (updates.foldl applyUpdate (afterCalls callsQ)).toSchema appName =
        (afterCalls callsQ).toSchema appName) ∧
      ∀ update, (afterCalls callsQ).find update.key = none →
        (afterCalls callsQ).applyUpdate update = afterCalls callsQ := by
  refine ⟨toValues_restored htypes hsaves, fun key hknown => ?_,
    toSchema_applyUpdates _ updates, fun _ => applyUpdate_of_unknown⟩
  obtain ⟨saved, hsaved⟩ := Option.isSome_iff_exists.mp hknown
  obtain ⟨record, htype, hfind⟩ := find_restored_of_known htypes hsaves hsaved
  exact readsAlike_of_find (typed_afterCalls callsP) hsaved hfind htype

/-- A parameter registered again with another type, its fields written by any setter. -/
def savedCalls : List ParamCall :=
  [.registerInt ⟨7, 7, true⟩ "speed" "Speed" 0 10 5 "",
    .registerFloat ⟨7, 7, true⟩ "speed" "Speed" 0 0x3F800000 0x3F000000 0x3C23D70A "",
    .registerBool ⟨7, 7, true⟩ "active" "Active" true "",
    .setFloat "speed" 0, .setInt "active" 3, .setBool "active" false]

def loadedCalls : List ParamCall :=
  [.registerBool ⟨1, 1, false⟩ "active" "On" true "",
    .registerFloat ⟨1, 1, false⟩ "speed" "Speed" 0 0x3F800000 0x3F000000 0x3C23D70A ""]

theorem savedCalls_restored :
    ((((afterCalls savedCalls).toValues "Cube").values.reverse ++
          ((afterCalls savedCalls).toValues "Cube").values).foldl applyUpdate
        (afterCalls loadedCalls)).toValues "Cube" =
      ⟨"Cube", [{ key := "active" }, { key := "speed" }]⟩ := by
  have htypes : ∀ key,
      (afterCalls loadedCalls).typeOf key = (afterCalls savedCalls).typeOf key := by
    intro key
    simp only [typeOf, find]
    rw [← OrderedMap.find_map fun _ (record : ParamRecord) => record.def_.type,
      ← OrderedMap.find_map fun _ (record : ParamRecord) => record.def_.type]
    rfl
  have hrestored := presets_restored savedCalls loadedCalls "Cube"
    (((afterCalls savedCalls).toValues "Cube").values.reverse ++
      ((afterCalls savedCalls).toValues "Cube").values) htypes (by simp)
  rw [hrestored.1]
  rfl

end AnimationParams
end MatrixServer
