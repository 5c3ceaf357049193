import EpollNet.Basis.Archive
import EpollNet.Verif.Rotation

/-!
# Lines in rotated files

The lines of a file that is rotated stay under the name it gets, as long as no other file gets this
name: `rename` replaces its target, and the name has the time in seconds.
-/

namespace EpollNet

open EpollNet.Basis

/-! ## What is demanded -/

/-- The lines of the file that a path names. -/
def Files.contents (files : Files) (path : Pathname) : List Line :=
  match files.names path with
  | some f => files.lines f
  | none => []

/-- The lines found in the current file and in those it was renamed to. -/
def Logging.found (s : Logging) : Multiset Line :=
  (s.files.contents s.logger.name : Multiset Line) + under s.rotated.toFinset s.files.contents

/-- The calls end, and the lines found are those the file had at first and those that were
logged. -/
def Preserved (localtime : Int → Tm) (entries : List LogEntry) (s : Logging) : Prop :=
  ∃ results s', calls (Logging.logvWrite localtime) entries s = .ok (results, s') ∧
    s'.found = (s.files.contents s.logger.name ++ entries.map LogEntry.line : List Line)

/-- A logger on the file that its name names, before any rotation. -/
structure OnFile (s : Logging) : Prop where
  /-- Its stream is that of the file. -/
  stream : ∃ f, s.logger.fp = some (.file f) ∧ s.files.names s.logger.name = some f
  /-- Nothing was rotated. -/
  fresh : s.rotated = []

/-- A call of which `fwrite`, `rename` and `fopen` succeed. -/
def LogEntry.Granted (entry : LogEntry) : Prop := entry.written = true ∧ entry.reopens = true

instance (entry : LogEntry) : Decidable entry.Granted := inferInstanceAs (Decidable (_ ∧ _))

/-! ## Files -/

variable {files : Files} {path old new : Pathname} {f : Nat} {line : Line}

/-- What a file has that is named. -/
theorem contents_some (named : files.names path = some f) :
    files.contents path = files.lines f := by
  unfold Files.contents
  rw [named]

/-- A line written to a file is in it. -/
theorem contents_fwrite_self (named : files.names path = some f) :
    (files.fwrite (.file f) line).contents path = files.contents path ++ [line] := by
  have named' : (files.fwrite (.file f) line).names path = some f := named
  rw [contents_some named', contents_some named]
  exact Function.update_self ..

/-- It is in no other. -/
theorem contents_fwrite_other (other : files.names path ≠ some f) :
    (files.fwrite (.file f) line).contents path = files.contents path := by
  unfold Files.contents
  show (match files.names path with
    | some g => Function.update files.lines f (files.lines f ++ [line]) g
    | none => []) = _
  cases named : files.names path with
  | none => rfl
  | some g =>
    have different : g ≠ f := fun same => other (named.trans (congrArg some same))
    exact Function.update_of_ne different ..

/-- The file that is renamed and made again. -/
def Files.remade (files : Files) (old new : Pathname) : Files :=
  (files.rename old new).create old

/-- Opening what was renamed makes it again. -/
theorem append_rename (files : Files) (old new : Pathname) :
    (files.rename old new).append old = (files.next, files.remade old new) := by
  have gone : (files.rename old new).names old = none := Function.update_self ..
  unfold Files.append
  rw [gone]
  rfl

/-- The new file has the old name. -/
theorem remade_names_old (files : Files) (old new : Pathname) :
    (files.remade old new).names old = some files.next :=
  Function.update_self ..

/-- The old one has the new name. -/
theorem remade_names_new (different : new ≠ old) :
    (files.remade old new).names new = files.names old := by
  unfold Files.remade Files.create Files.rename
  dsimp only
  rw [Function.update_of_ne different, Function.update_of_ne different, Function.update_self]

/-- All others keep their names. -/
theorem remade_names_other (unlike : path ≠ old) (apart : path ≠ new) :
    (files.remade old new).names path = files.names path := by
  unfold Files.remade Files.create Files.rename
  dsimp only
  rw [Function.update_of_ne unlike, Function.update_of_ne unlike, Function.update_of_ne apart]

/-- The new file is empty. -/
theorem contents_remade_old (files : Files) (old new : Pathname) :
    (files.remade old new).contents old = [] := by
  rw [contents_some (remade_names_old files old new)]
  exact Function.update_self ..

/-- Files that there were keep their lines. -/
theorem remade_lines (older : f < files.next) :
    (files.remade old new).lines f = files.lines f :=
  Function.update_of_ne (Nat.ne_of_lt older) ..

/-- A path that names after it what a path named before has its lines. -/
theorem contents_remade {before : Pathname}
    (same : (files.remade old new).names path = files.names before) :
    (files.remade old new).contents path = files.contents before := by
  unfold Files.contents
  rw [same]
  cases named : files.names before with
  | none => rfl
  | some g => exact remade_lines (files.numbered before g named)

/-! ## What was written -/

/-- What calls put into files: those rotated so far with their names, and the current one. -/
structure Shelf where
  /-- How much was written since the file was opened. -/
  wcurr : Nat
  /-- The names of the files that were rotated, and their lines. -/
  batches : List (Pathname × List Line)
  /-- The lines of the current one. -/
  current : List Line

/-- What a call puts there. -/
def Shelf.next (localtime : Int → Tm) (name : Pathname) (rotatesize : Nat) (v : Shelf)
    (entry : LogEntry) : Shelf :=
  if Fills rotatesize v.wcurr entry.line then
    ⟨0, v.batches ++ [(entry.target localtime name, v.current ++ [entry.line])], []⟩
  else ⟨asUllong (v.wcurr + entry.line.length), v.batches, v.current ++ [entry.line]⟩

/-- All lines, in the order in which they were written. -/
def Shelf.lines (v : Shelf) : List Line := v.batches.flatMap Prod.snd ++ v.current

variable {localtime : Int → Tm} {name : Pathname} {rotatesize : Nat} {entry : LogEntry}
  {entries : List LogEntry} {s : Logging} {v : Shelf}

/-- A call adds its line. -/
theorem Shelf.lines_next (v : Shelf) (entry : LogEntry) :
    (v.next localtime name rotatesize entry).lines = v.lines ++ [entry.line] := by
  unfold Shelf.next Shelf.lines
  split
  · rw [List.flatMap_append, List.flatMap_singleton, List.append_nil, List.append_assoc]
  · rw [List.append_assoc]

/-- Calls add their lines. -/
theorem Shelf.lines_run (localtime : Int → Tm) (name : Pathname) (rotatesize : Nat)
    (v : Shelf) (entries : List LogEntry) :
    (entries.foldl (Shelf.next localtime name rotatesize) v).lines =
      v.lines ++ entries.map LogEntry.line := by
  induction entries generalizing v with
  | nil => rw [List.map_nil, List.append_nil]; rfl
  | cons entry entries ih =>
    rw [List.foldl_cons, ih, Shelf.lines_next, List.map_cons, List.append_assoc]
    rfl

/-- Calls rotate files to the names of their rotations. -/
theorem Shelf.names_run (localtime : Int → Tm) (name : Pathname) (rotatesize : Nat)
    (v : Shelf) (entries : List LogEntry) :
    (entries.foldl (Shelf.next localtime name rotatesize) v).batches.map Prod.fst =
      v.batches.map Prod.fst ++
        (rotations rotatesize v.wcurr entries).map (LogEntry.target localtime name) := by
  induction entries generalizing v with
  | nil => exact (List.append_nil _).symm
  | cons entry entries ih =>
    rw [List.foldl_cons, ih]
    unfold Shelf.next
    by_cases fills : Fills rotatesize v.wcurr entry.line
    · rw [if_pos fills, rotations_fills fills, List.map_append, List.append_assoc]
      rfl
    · rw [if_neg fills, rotations_quiet fills]

/-- What is rotated has a line. -/
theorem Shelf.filled_run (localtime : Int → Tm) (name : Pathname) (rotatesize : Nat)
    {v : Shelf} (filled : ∀ batch ∈ v.batches, batch.2 ≠ [])
    (entries : List LogEntry) :
    ∀ batch ∈ (entries.foldl (Shelf.next localtime name rotatesize) v).batches, batch.2 ≠ [] := by
  induction entries generalizing v with
  | nil => exact filled
  | cons entry entries ih =>
    refine ih ?_
    unfold Shelf.next
    split
    · intro batch member
      rcases List.mem_append.mp member with old | new
      · exact filled batch old
      · rw [List.mem_singleton.mp new]
        exact List.append_ne_nil_of_right_ne_nil _ (List.cons_ne_nil _ _)
    · exact filled

/-! ## The files that hold it -/

/-- The files of a logger hold what its calls put there. -/
structure Shelved (name : Pathname) (rotatesize : Nat) (s : Logging) (v : Shelf) : Prop where
  named : s.logger.name = name
  rotatesize : s.logger.rotatesize = rotatesize
  wcurr : s.logger.wcurr = v.wcurr
  rotated : s.rotated = v.batches.map Prod.fst
  unlike : ∀ path ∈ s.rotated, path ≠ name
  /-- The stream is that of the current file, which has no other name of the logger. -/
  stream : ∃ f, s.logger.fp = some (.file f) ∧ s.files.names name = some f ∧
    ∀ path ∈ s.rotated, s.files.names path ≠ some f
  current : s.files.contents name = v.current
  batches : ∀ path ∈ s.rotated, s.files.contents path = stored (fun _ => []) v.batches path

/-- A path is renamed to a longer one. -/
theorem target_ne (entry : LogEntry) (name : Pathname) : entry.target localtime name ≠ name := by
  intro same
  have length := congrArg List.length same
  unfold LogEntry.target rotatedName at length
  simp only [List.length_append] at length
  have dot : (ascii ".").length = 1 := rfl
  omega

/-- Whether a line fills the current file is told by what the calls before it put there. -/
theorem Shelved.fills (shelved : Shelved name rotatesize s v) (line : Line) :
    Fills s.logger.rotatesize s.logger.wcurr line ↔ Fills rotatesize v.wcurr line := by
  rw [shelved.rotatesize, shelved.wcurr]

/-- A line that is written. -/
theorem Shelved.write (shelved : Shelved name rotatesize s v) (written : entry.written = true)
    {stream : FileStream} (found : s.logger.fp = some stream) :
    Shelved name rotatesize (s.fwrite entry stream)
      ⟨asUllong (v.wcurr + entry.line.length), v.batches, v.current ++ [entry.line]⟩ := by
  obtain ⟨f, file, named, apart⟩ := shelved.stream
  obtain rfl := Option.some.inj (found.symm.trans file)
  have files : (s.fwrite entry (.file f)).files = s.files.fwrite (.file f) entry.line :=
    if_pos written
  refine ⟨shelved.named, shelved.rotatesize, ?_, shelved.rotated, shelved.unlike, ?_, ?_, ?_⟩
  · show asUllong (s.logger.wcurr + entry.line.length) = _
    rw [shelved.wcurr]
  · refine ⟨f, file, ?_, ?_⟩
    · rw [files]
      exact named
    · rw [files]
      exact apart
  · rw [files, contents_fwrite_self named, shelved.current]
  · intro path member
    rw [files, contents_fwrite_other (apart path member)]
    exact shelved.batches path member

/-- The file is rotated. -/
theorem Shelved.reopened (shelved : Shelved name rotatesize s v) (different : new ≠ name) :
    Shelved name rotatesize (s.reopened new)
      ⟨0, v.batches ++ [(new, v.current)], []⟩ := by
  obtain ⟨f, file, named, apart⟩ := shelved.stream
  have files : (s.reopened new).files = s.files.remade name new := by
    unfold Logging.reopened
    rw [shelved.named, append_rename]
  have stream : (s.reopened new).logger.fp = some (.file s.files.next) := by
    unfold Logging.reopened
    rw [shelved.named, append_rename]
  have older := s.files.numbered name f named
  refine ⟨shelved.named, shelved.rotatesize, rfl, ?_, ?_, ⟨s.files.next, stream, ?_, ?_⟩, ?_, ?_⟩
  · show s.rotated ++ [new] = _
    rw [shelved.rotated, List.map_append, List.map_singleton]
  · intro path member
    rcases List.mem_append.mp member with old | here
    · exact shelved.unlike path old
    · rw [List.mem_singleton.mp here]
      exact different
  · rw [files]
    exact remade_names_old ..
  · intro path member
    rw [files]
    by_cases here : path = new
    · rw [here, remade_names_new different, named]
      intro same
      exact absurd (Option.some.inj same) (Nat.ne_of_lt older)
    · have old : path ∈ s.rotated := (List.mem_append.mp member).resolve_right fun last =>
        here (List.mem_singleton.mp last)
      rw [remade_names_other (shelved.unlike path old) here]
      intro same
      exact absurd (s.files.numbered path _ same) (Nat.lt_irrefl _)
  · rw [files]
    exact contents_remade_old ..
  · intro path member
    rw [files, stored_concat]
    by_cases here : path = new
    · rw [here, Function.update_self, contents_remade (remade_names_new different),
        shelved.current]
    · have old : path ∈ s.rotated := (List.mem_append.mp member).resolve_right fun last =>
        here (List.mem_singleton.mp last)
      rw [Function.update_of_ne here,
        contents_remade (remade_names_other (shelved.unlike path old) here)]
      exact shelved.batches path old

/-- A call whose path fits, if it rotates the file. -/
theorem Shelved.call (shelved : Shelved name rotatesize s v) (granted : entry.Granted)
    (fits : Fills rotatesize v.wcurr entry.line →
      (entry.target localtime name).length < pathMax) :
    ∃ s', s.logvWrite localtime entry = .ok (0, s') ∧
      Shelved name rotatesize s' (v.next localtime name rotatesize entry) := by
  obtain ⟨f, file, _, _⟩ := shelved.stream
  have written := shelved.write granted.1 file
  unfold Shelf.next
  by_cases fills : Fills rotatesize v.wcurr entry.line
  · have fills' := (shelved.fills entry.line).mpr fills
    have fits' : (entry.target localtime (s.fwrite entry (.file f)).logger.name).length <
        pathMax := by
      rw [written.named]
      exact fits fills
    rw [logvWrite_fills file fills', rotate_reopened fits' granted.2, ok_bind, if_pos fills,
      written.named]
    exact ⟨_, rfl, written.reopened (target_ne entry name)⟩
  · rw [logvWrite_quiet file (mt (shelved.fills entry.line).mp fills), if_neg fills]
    exact ⟨_, rfl, written⟩

/-- One whose path does not. -/
theorem Shelved.overrun (shelved : Shelved name rotatesize s v)
    (fills : Fills rotatesize v.wcurr entry.line)
    (long : ¬(entry.target localtime name).length < pathMax) :
    s.logvWrite localtime entry = .error .overrun := by
  obtain ⟨f, file, _, _⟩ := shelved.stream
  have fills' := (shelved.fills entry.line).mpr fills
  have long' : ¬(entry.target localtime (s.fwrite entry (.file f)).logger.name).length <
      pathMax := by
    rw [fwrite_name, shelved.named]
    exact long
  rw [logvWrite_fills file fills', rotate_overrun long', error_bind]

/-- A call, and those after it: which of them rotate the file. -/
theorem rotations_cons (localtime : Int → Tm) (name : Pathname) (rotatesize : Nat)
    (v : Shelf) (entry : LogEntry) (entries : List LogEntry) :
    rotations rotatesize v.wcurr (entry :: entries) =
      (if Fills rotatesize v.wcurr entry.line then [entry] else []) ++
        rotations rotatesize (v.next localtime name rotatesize entry).wcurr entries := by
  unfold Shelf.next
  by_cases fills : Fills rotatesize v.wcurr entry.line
  · rw [rotations_fills fills, if_pos fills, if_pos fills]
    rfl
  · rw [rotations_quiet fills, if_neg fills, if_neg fills]
    rfl

/-- Calls whose paths all fit. -/
theorem Shelved.run (shelved : Shelved name rotatesize s v)
    (granted : ∀ entry ∈ entries, entry.Granted)
    (fits : ∀ entry ∈ rotations rotatesize v.wcurr entries,
      (entry.target localtime name).length < pathMax) :
    ∃ results s', calls (Logging.logvWrite localtime) entries s = .ok (results, s') ∧
      Shelved name rotatesize s' (entries.foldl (Shelf.next localtime name rotatesize) v) := by
  induction entries generalizing s v with
  | nil => exact ⟨[], s, rfl, shelved⟩
  | cons entry entries ih =>
    rw [rotations_cons localtime name] at fits
    have here : Fills rotatesize v.wcurr entry.line →
        (entry.target localtime name).length < pathMax := by
      intro fills
      refine fits entry (List.mem_append_left _ ?_)
      rw [if_pos fills]
      exact List.mem_singleton_self _
    obtain ⟨s', called, shelved'⟩ := shelved.call (granted entry List.mem_cons_self) here
    obtain ⟨results, s'', rest, last⟩ := ih shelved'
      (fun other member => granted other (List.mem_cons_of_mem _ member))
      (fun other member => fits other (List.mem_append_right _ member))
    refine ⟨0 :: results, s'', ?_, last⟩
    rw [calls, called, ok_bind]
    dsimp only
    rw [rest, ok_bind]

/-- Calls that end, so that their paths all fit. -/
theorem Shelved.fits (shelved : Shelved name rotatesize s v)
    (granted : ∀ entry ∈ entries, entry.Granted) {results : List Int} {s' : Logging}
    (ended : calls (Logging.logvWrite localtime) entries s = .ok (results, s')) :
    ∀ entry ∈ rotations rotatesize v.wcurr entries,
      (entry.target localtime name).length < pathMax := by
  induction entries generalizing s v results with
  | nil => exact fun entry member => absurd member List.not_mem_nil
  | cons entry entries ih =>
    rw [calls] at ended
    have here : Fills rotatesize v.wcurr entry.line →
        (entry.target localtime name).length < pathMax := by
      intro fills
      by_contra long
      rw [shelved.overrun fills long] at ended
      cases ended
    obtain ⟨next, called, shelved'⟩ := shelved.call (granted entry List.mem_cons_self) here
    rw [called, ok_bind] at ended
    obtain ⟨⟨results', last⟩, rest, same⟩ := bind_ends ended
    obtain ⟨_, rfl⟩ := Prod.mk.inj (Except.ok.inj same)
    have later := ih shelved'
      (fun other member => granted other (List.mem_cons_of_mem _ member)) rest
    rw [rotations_cons localtime name]
    intro other member
    rcases List.mem_append.mp member with first | after
    · by_cases fills : Fills rotatesize v.wcurr entry.line
      · rw [if_pos fills] at first
        rw [List.mem_singleton.mp first]
        exact here fills
      · rw [if_neg fills] at first
        exact absurd first List.not_mem_nil
    · exact later other after

/-- What is found where the files hold what was put there. -/
theorem Shelved.found (shelved : Shelved name rotatesize s v) :
    s.found = under (v.batches.map Prod.fst).toFinset (stored (fun _ => []) v.batches) +
      (v.current : Multiset Line) := by
  unfold Logging.found
  rw [shelved.named, shelved.current, add_comm, ← shelved.rotated]
  congr 1
  refine under_congr fun path member => ?_
  exact shelved.batches path (List.mem_toFinset.mp member)

/-- All of it is found if and only if no name came twice. -/
theorem Shelved.found_iff (shelved : Shelved name rotatesize s v)
    (filled : ∀ batch ∈ v.batches, batch.2 ≠ []) :
    s.found = (v.lines : Multiset Line) ↔ (v.batches.map Prod.fst).Nodup := by
  rw [shelved.found, Shelf.lines, ← Multiset.coe_add, add_left_inj, stored_iff filled]

/-- What a logger puts calls on top of. -/
def Logging.shelf (s : Logging) : Shelf :=
  ⟨s.logger.wcurr, [], s.files.contents s.logger.name⟩

/-- Its files hold it. -/
theorem OnFile.shelved (start : OnFile s) :
    Shelved s.logger.name s.logger.rotatesize s s.shelf := by
  obtain ⟨f, file, named⟩ := start.stream
  have none' : ∀ path, path ∉ s.rotated := by
    intro path
    rw [start.fresh]
    exact List.not_mem_nil
  refine ⟨rfl, rfl, rfl, start.fresh, ?_, ⟨f, file, named, ?_⟩, rfl, ?_⟩
  · exact fun path member => absurd member (none' path)
  · exact fun path member => absurd member (none' path)
  · exact fun path member => absurd member (none' path)

/-- After its calls, every line that was logged is found if and only if no two rotations have one
name. -/
theorem Shelved.found_run {s' : Logging} (shelved : Shelved s.logger.name s.logger.rotatesize s'
      (entries.foldl (Shelf.next localtime s.logger.name s.logger.rotatesize) s.shelf)) :
    s'.found = (s.files.contents s.logger.name ++ entries.map LogEntry.line : List Line) ↔
      ((rotations s.logger.rotatesize s.logger.wcurr entries).map
        (LogEntry.target localtime s.logger.name)).Nodup := by
  have nothing : ∀ batch ∈ s.shelf.batches, batch.2 ≠ [] :=
    fun batch member => absurd member List.not_mem_nil
  have filled := Shelf.filled_run localtime s.logger.name s.logger.rotatesize nothing entries
  have lines := Shelf.lines_run localtime s.logger.name s.logger.rotatesize s.shelf entries
  have names := Shelf.names_run localtime s.logger.name s.logger.rotatesize s.shelf entries
  have first : s.shelf.lines = s.files.contents s.logger.name := rfl
  have noName : s.shelf.batches.map Prod.fst = [] := rfl
  have count : s.shelf.wcurr = s.logger.wcurr := rfl
  rw [first] at lines
  rw [noName, count, List.nil_append] at names
  rw [← lines, ← names]
  exact shelved.found_iff filled

/-- Where every line is found, the names of the rotations fit, and no two of them are the same. -/
theorem Preserved.names (preserved : Preserved localtime entries s) (start : OnFile s)
    (granted : ∀ entry ∈ entries, entry.Granted) :
    (∀ entry ∈ rotations s.logger.rotatesize s.logger.wcurr entries,
      (entry.target localtime s.logger.name).length < pathMax) ∧
    ((rotations s.logger.rotatesize s.logger.wcurr entries).map
      (LogEntry.target localtime s.logger.name)).Nodup := by
  obtain ⟨results, s', ended, found⟩ := preserved
  have fits := start.shelved.fits granted ended
  obtain ⟨results', s'', ended', shelved'⟩ := start.shelved.run granted fits
  obtain ⟨_, rfl⟩ := Prod.mk.inj (Except.ok.inj (ended.symm.trans ended'))
  exact ⟨fits, shelved'.found_run.mp found⟩

/-- A logger that was created for a file is on it. -/
theorem loggerCreate_onFile {level rotate_size : Int} {granted : Bool} {files : Files}
    (plain : standardStream name = none)
    (created : loggerCreate level rotate_size name granted files = .ok (some s)) : OnFile s := by
  unfold loggerCreate at created
  split at created
  · cases created
  · rw [plain] at created
    dsimp only at created
    split at created
    · obtain rfl := Option.some.inj (Except.ok.inj created)
      refine ⟨⟨(files.append name).1, rfl, ?_⟩, rfl⟩
      show (files.append name).2.names name = some (files.append name).1
      unfold Files.append
      cases named : files.names name with
      | none => exact Function.update_self ..
      | some f => exact named
    · cases Except.ok.inj created

/-- With `fwrite`, `rename` and `fopen` succeeding, the lines found in the current file and in the
rotated ones are the lines logged if and only if the names of the rotations fit and no two of them
are the same. -/
theorem rotation_preserves_iff (localtime : Int → Tm) (start : OnFile s)
    (granted : ∀ entry ∈ entries, entry.Granted) :
    Preserved localtime entries s ↔
      (∀ entry ∈ rotations s.logger.rotatesize s.logger.wcurr entries,
        (entry.target localtime s.logger.name).length < pathMax) ∧
      ((rotations s.logger.rotatesize s.logger.wcurr entries).map
        (LogEntry.target localtime s.logger.name)).Nodup := by
  constructor
  · intro preserved
    exact preserved.names start granted
  · rintro ⟨fits, once⟩
    obtain ⟨results, s', ended, shelved⟩ := start.shelved.run granted fits
    exact ⟨results, s', ended, shelved.found_run.mpr once⟩

/-- Lines that fill a new file, and one more, for which it is rotated. -/
theorem rotation_preserves_rotated :
    Preserved (fun _ => ⟨126, 0, 1, 12, 0, 0⟩) (List.replicate 256 longEntry ++ [longEntry])
      fileLogging := by
  have start := loggerCreate_onFile (by decide) fileLogging_created
  have granted : ∀ entry ∈ List.replicate 256 longEntry ++ [longEntry], entry.Granted := by
    intro entry member
    rw [← List.replicate_succ'] at member
    rw [List.eq_of_mem_replicate member]
    decide
  have once : rotations fileLogging.logger.rotatesize fileLogging.logger.wcurr
      (List.replicate 256 longEntry ++ [longEntry]) = [longEntry] :=
    (longEntry_rotations rfl).1
  apply (rotation_preserves_iff _ start granted).mpr
  rw [once]
  decide

/-- Two rotations in one second. -/
theorem rotation_replaces :
    ¬∀ (localtime : Int → Tm) (entries : List LogEntry) (s : Logging), OnFile s →
      0 < s.logger.rotatesize → (∀ entry ∈ entries, entry.Granted) →
      entries.Pairwise (fun earlier later => earlier.now ≤ later.now) →
        Preserved localtime entries s := by
  intro always
  have start := loggerCreate_onFile (by decide) fileLogging_created
  have granted : ∀ entry ∈ List.replicate 514 longEntry, entry.Granted := by
    intro entry member
    rw [List.eq_of_mem_replicate member]
    decide
  have ordered : (List.replicate 514 longEntry).Pairwise
      fun earlier later => earlier.now ≤ later.now :=
    List.pairwise_replicate.mpr (.inr (le_refl _))
  have preserved := always (fun _ => ⟨126, 0, 1, 12, 0, 0⟩) _ fileLogging start (by decide) granted
    ordered
  have twice : List.replicate 514 longEntry = List.replicate 256 longEntry ++
      longEntry :: (List.replicate 256 longEntry ++ [longEntry]) := by
    rw [← List.replicate_succ', ← List.replicate_succ, List.replicate_append_replicate]
  have size : fileLogging.logger.rotatesize = 1048576 := rfl
  have count : fileLogging.logger.wcurr = 0 := rfl
  have distinct := (preserved.names start granted).2
  have small : 0 + ((List.replicate 256 longEntry).map fun entry => entry.line.length).sum ≤
      1048576 := by
    rw [longEntry_sum]
    decide
  rw [size, count, twice, rotations_short _ (by decide) small, longEntry_sum, Nat.zero_add,
    rotations_fills longEntry_fills, rotations_short _ (by decide) small, longEntry_sum,
    Nat.zero_add, rotations_fills longEntry_fills] at distinct
  exact absurd distinct (by simp [rotations])

end EpollNet
