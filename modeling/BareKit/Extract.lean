import BareKit.Paths
import BareKit.Pool
import BareKit.Queue
import BareKit.Transition

/-! The extraction of the resources of a bundle, by any number of worklets at once and over
any number of crashes. Each call on the file system is a step, and a write of a file is one
for each part of it. Directories are left out: they only make a call fail, and any call
may. -/
namespace BareKit

/-- What a worklet is started with, the same for all. `extname` and `decode` are those of
`path` and of `Buffer`. -/
structure Bundle where
  resources : Text
  filename : Text
  extname : Text → Text
  decode : Bytes → Text
  readResource : Text → Option Bytes

/-- `'.assets'` -/
def assets : Text := ['.', 'a', 's', 's', 'e', 't', 's']

/-- A file that is extracted, or one that is still being written, which has the name of
where it will be moved and a random number. -/
inductive FileName where
  | target (path : Path)
  | tmp (target : Path) (random : Nat)
  deriving DecidableEq, Repr

/-- A call of `write`. What comes after it is the rest of the keys, with the listing that
they are of, or the end. -/
structure Write where
  target : Path
  data : Bytes
  after : Option (Bytes × List Text)
  deriving DecidableEq, Repr

/-- What a call of `extract` does next. -/
inductive Extract where
  | checking
  | reading
  | next (keys : Bytes) (rest : List Text)
  | making (write : Write)
  | creating (write : Write)
  | writing (write : Write) (random : Nat) (written : Nat)
  | returned
  | threw (key : Text)
  | failed
  deriving DecidableEq, Repr

/-- Where a call of `write` returns to. -/
def Write.next (write : Write) : Extract :=
  match write.after with
  | none => .returned
  | some (keys, rest) => .next keys rest

def Extract.finished : Extract → Bool
  | .returned | .threw _ | .failed => true
  | _ => false

def Extract.random : Extract → Option Nat
  | .writing _ random _ => some random
  | _ => none

structure Extraction where
  files : FileName → Option Bytes := fun _ => none
  drawn : List Nat := []
  extracts : List Extract := []

inductive ExtractStep where
  | start
  /-- A call goes on to its next call on the file system, or makes it. -/
  | onExtract (n : Nat)
  /-- `writeFileSync` creates its file. -/
  | create (n : Nat) (random : Nat)
  /-- It writes some more of it. -/
  | append (n : Nat) (count : Nat)
  | rename (n : Nat)
  /-- A call fails, or its worklet is gone. -/
  | fail (n : Nat)
  deriving DecidableEq, Repr

namespace Bundle

def name (bundle : Bundle) : Text :=
  bundle.filename.take (bundle.filename.length - (bundle.extname bundle.filename).length)

def listing (bundle : Bundle) : Path := pathJoin bundle.resources (bundle.name ++ assets)

def target (bundle : Bundle) (key : Text) : Path := pathJoin bundle.resources (bundle.name ++ key)

/-- `readResource(name + '.assets')` -/
def readListing (bundle : Bundle) : Option Bytes := bundle.readResource (bundle.name ++ assets)

/-- `readResource(name + key)` -/
def readKey (bundle : Bundle) (key : Text) : Option Bytes :=
  bundle.readResource (bundle.name ++ key)

def lines (bundle : Bundle) (keys : Bytes) : List Text := split '\n' (bundle.decode keys)

/-- The filename is that of a file, as far as its name goes. -/
def Named (bundle : Bundle) : Prop :=
  ∃ segment, (split '/' bundle.name).getLast? = some segment ∧ Proper segment

/-- The lines of the listing are blank, or paths that begin with a slash and have no dot
segments. -/
def Listable (bundle : Bundle) : Prop :=
  ∀ keys key, bundle.readListing = some keys → key ∈ bundle.lines keys → key ≠ [] →
    key.head? = some '/' ∧ ∀ segment ∈ split '/' key, segment ≠ ['.'] ∧ segment ≠ ['.', '.']

/-- No two slashes of a key are next to each other, and it does not end with one. -/
def Plain (key : Text) : Prop := ∀ segment ∈ (split '/' key).tail, segment ≠ []

instance (key : Text) : Decidable (Plain key) := inferInstanceAs (Decidable (∀ _ ∈ _, _))

def Apart (bundle : Bundle) : Prop :=
  ∀ keys key, bundle.readListing = some keys → key ∈ bundle.lines keys → key ≠ [] →
    bundle.target key ≠ bundle.listing

end Bundle

namespace Extraction

def put (extraction : Extraction) (n : Nat) (extract : Extract) : Extraction :=
  { extraction with extracts := extraction.extracts.set n extract }

section

variable (bundle : Bundle)

def stepExtract (extraction : Extraction) (n : Nat) : Extract → Option Extraction
  | .checking =>
    if (extraction.files (.target bundle.listing)).isSome then some (extraction.put n .returned)
    else some (extraction.put n .reading)
  | .reading =>
    match bundle.readListing with
    | none => some (extraction.put n .returned)
    | some keys => some (extraction.put n (.next keys (bundle.lines keys)))
  | .next keys [] => some (extraction.put n (.making ⟨bundle.listing, keys, none⟩))
  | .next keys (key :: rest) =>
    if key = [] then some (extraction.put n (.next keys rest))
    else
      match bundle.readKey key with
      | none => some (extraction.put n (.threw key))
      | some data => some (extraction.put n (.making ⟨bundle.target key, data, some (keys, rest)⟩))
  | .making write => some (extraction.put n (.creating write))
  | _ => none

def step (extraction : Extraction) : ExtractStep → Option Extraction
  | .start => some { extraction with extracts := extraction.extracts ++ [.checking] }
  | .onExtract n => extraction.extracts[n]?.bind (extraction.stepExtract bundle n)
  | .create n random =>
    extraction.extracts[n]?.bind fun
      | .creating write =>
        if random ∈ extraction.drawn then none
        else some { extraction.put n (.writing write random 0) with
          files := Function.update extraction.files (.tmp write.target random) (some [])
          drawn := random :: extraction.drawn }
      | _ => none
  | .append n count =>
    extraction.extracts[n]?.bind fun
      | .writing write random written =>
        some { extraction.put n (.writing write random (written + count)) with
          files := Function.update extraction.files (.tmp write.target random)
            ((extraction.files (.tmp write.target random)).map
              (· ++ (write.data.drop written).take count)) }
      | _ => none
  | .rename n =>
    extraction.extracts[n]?.bind fun
      | .writing write random written =>
        if write.data.length ≤ written then
          some { extraction.put n write.next with
            files := Function.update
              (Function.update extraction.files (.tmp write.target random) none)
                (.target write.target)
              (extraction.files (.tmp write.target random)) }
        else none
      | _ => none
  | .fail n =>
    extraction.extracts[n]?.bind fun extract =>
      if extract.finished then none else some (extraction.put n .failed)

def system : Transition.System Extraction ExtractStep where
  init extraction := extraction = {}
  step := step bundle

end

inductive Move (bundle : Bundle) (extraction : Extraction) : ExtractStep → Extraction → Prop where
  | start :
      Move bundle extraction .start { extraction with
        extracts := extraction.extracts ++ [.checking] }
  | found {n} (hextract : extraction.extracts[n]? = some .checking)
      (hlisting : (extraction.files (.target bundle.listing)).isSome = true) :
    Move bundle extraction (.onExtract n) (extraction.put n .returned)
  | missing {n} (hextract : extraction.extracts[n]? = some .checking) :
    Move bundle extraction (.onExtract n) (extraction.put n .reading)
  | unlisted {n} (hextract : extraction.extracts[n]? = some .reading)
      (hread : bundle.readListing = none) :
    Move bundle extraction (.onExtract n) (extraction.put n .returned)
  | listed {n keys} (hextract : extraction.extracts[n]? = some .reading)
      (hread : bundle.readListing = some keys) :
    Move bundle extraction (.onExtract n) (extraction.put n (.next keys (bundle.lines keys)))
  | last {n keys} (hextract : extraction.extracts[n]? = some (.next keys [])) :
    Move bundle extraction (.onExtract n) (extraction.put n (.making ⟨bundle.listing, keys, none⟩))
  | blank {n keys rest} (hextract : extraction.extracts[n]? = some (.next keys ([] :: rest))) :
    Move bundle extraction (.onExtract n) (extraction.put n (.next keys rest))
  | threw {n keys key rest} (hextract : extraction.extracts[n]? = some (.next keys (key :: rest)))
      (hkey : key ≠ []) (hread : bundle.readKey key = none) :
    Move bundle extraction (.onExtract n) (extraction.put n (.threw key))
  | key {n keys key rest data}
      (hextract : extraction.extracts[n]? = some (.next keys (key :: rest)))
      (hkey : key ≠ []) (hread : bundle.readKey key = some data) :
    Move bundle extraction (.onExtract n)
      (extraction.put n (.making ⟨bundle.target key, data, some (keys, rest)⟩))
  | made {n write} (hextract : extraction.extracts[n]? = some (.making write)) :
    Move bundle extraction (.onExtract n) (extraction.put n (.creating write))
  | created {n random write} (hextract : extraction.extracts[n]? = some (.creating write))
      (hfresh : random ∉ extraction.drawn) :
    Move bundle extraction (.create n random) { extraction.put n (.writing write random 0) with
      files := Function.update extraction.files (.tmp write.target random) (some [])
      drawn := random :: extraction.drawn }
  | appended {n count write random written}
      (hextract : extraction.extracts[n]? = some (.writing write random written)) :
    Move bundle extraction (.append n count)
      { extraction.put n (.writing write random (written + count)) with
        files := Function.update extraction.files (.tmp write.target random)
          ((extraction.files (.tmp write.target random)).map
            (· ++ (write.data.drop written).take count)) }
  | renamed {n write random written}
      (hextract : extraction.extracts[n]? = some (.writing write random written))
      (hwritten : write.data.length ≤ written) :
    Move bundle extraction (.rename n) { extraction.put n write.next with
      files := Function.update
        (Function.update extraction.files (.tmp write.target random) none) (.target write.target)
        (extraction.files (.tmp write.target random)) }
  | failed {n old} (hextract : extraction.extracts[n]? = some old) :
    Move bundle extraction (.fail n) (extraction.put n .failed)

variable {bundle : Bundle} {extraction next : Extraction} {n : Nat} {old new extract : Extract}
    {write : Write}

theorem move_stepExtract (hextract : extraction.extracts[n]? = some extract)
    (hstep : extraction.stepExtract bundle n extract = some next) :
    Move bundle extraction (.onExtract n) next := by
  cases extract with
  | checking =>
    simp only [stepExtract] at hstep
    split at hstep <;> cases hstep
    · exact .found hextract ‹_›
    · exact .missing hextract
  | reading =>
    simp only [stepExtract] at hstep
    split at hstep <;> cases hstep
    · exact .unlisted hextract ‹_›
    · exact .listed hextract ‹_›
  | next keys rest =>
    cases rest with
    | nil =>
      cases hstep
      exact .last hextract
    | cons key rest =>
      simp only [stepExtract] at hstep
      split at hstep
      · rename_i hkey
        subst hkey
        cases hstep
        exact .blank hextract
      · split at hstep <;> cases hstep
        · exact .threw hextract ‹_› ‹_›
        · exact .key hextract ‹_› ‹_›
  | making write =>
    cases hstep
    exact .made hextract
  | creating _ | writing _ _ _ | returned | threw _ | failed => contradiction

theorem move_step {label : ExtractStep} (hstep : extraction.step bundle label = some next) :
    Move bundle extraction label next := by
  cases label with
  | start =>
    cases hstep
    exact .start
  | onExtract n =>
    obtain ⟨extract, hextract, hnext⟩ := Option.bind_eq_some_iff.mp hstep
    exact move_stepExtract hextract hnext
  | create n random =>
    obtain ⟨extract, hextract, hnext⟩ := Option.bind_eq_some_iff.mp hstep
    split at hnext
    · split at hnext
      · contradiction
      · cases hnext
        exact .created hextract ‹_›
    · contradiction
  | append n count =>
    obtain ⟨extract, hextract, hnext⟩ := Option.bind_eq_some_iff.mp hstep
    split at hnext
    · cases hnext
      exact .appended hextract
    · contradiction
  | rename n =>
    obtain ⟨extract, hextract, hnext⟩ := Option.bind_eq_some_iff.mp hstep
    split at hnext
    · split at hnext
      · cases hnext
        exact .renamed hextract ‹_›
      · contradiction
    · contradiction
  | fail n =>
    obtain ⟨extract, hextract, hnext⟩ := Option.bind_eq_some_iff.mp hstep
    split at hnext
    · contradiction
    · cases hnext
      exact .failed hextract

def Present (extraction : Extraction) (path : Path) : Prop :=
  (extraction.files (.target path)).isSome = true

def Done (bundle : Bundle) (extraction : Extraction) (key : Text) : Prop :=
  key ≠ [] → extraction.Present (bundle.target key) ∧ (bundle.readKey key).isSome = true

/-- A write of the listing comes once each of its keys was extracted, and a write of a key
once those before it were. -/
def WriteSound (bundle : Bundle) (extraction : Extraction) (write : Write) : Prop :=
  match write.after with
  | none => write.target = bundle.listing ∧ bundle.readListing = some write.data ∧
      ∀ key ∈ bundle.lines write.data, extraction.Done bundle key
  | some (keys, rest) => bundle.readListing = some keys ∧
      ∃ done key, bundle.lines keys = done ++ key :: rest ∧ key ≠ [] ∧
      write.target = bundle.target key ∧
        bundle.readKey key = some write.data ∧ ∀ key ∈ done, extraction.Done bundle key

def ExtractSound (bundle : Bundle) (extraction : Extraction) : Extract → Prop
  | .checking | .reading | .failed => True
  | .next keys rest => bundle.readListing = some keys ∧
      ∃ done, bundle.lines keys = done ++ rest ∧ ∀ key ∈ done, extraction.Done bundle key
  | .making write | .creating write => extraction.WriteSound bundle write
  | .writing write random written =>
    extraction.WriteSound bundle write ∧ random ∈ extraction.drawn ∧
      extraction.files (.tmp write.target random) = some (write.data.take written)
  | .returned => ∀ keys, bundle.readListing = some keys →
      ∀ key ∈ bundle.lines keys, extraction.Done bundle key
  | .threw key => key ≠ [] ∧ bundle.readKey key = none ∧
      ∃ keys, bundle.readListing = some keys ∧ key ∈ bundle.lines keys

/-- What `readResource` gives for a path: for the listing, or for a key that it has. -/
def Gives (bundle : Bundle) (path : Path) (data : Bytes) : Prop :=
  path = bundle.listing ∧ bundle.readListing = some data ∨
    ∃ keys key, bundle.readListing = some keys ∧ key ∈ bundle.lines keys ∧ key ≠ [] ∧
      path = bundle.target key ∧ bundle.readKey key = some data

structure Sound (bundle : Bundle) (extraction : Extraction) : Prop where
  given : ∀ path data, extraction.files (.target path) = some data → Gives bundle path data
  listed : extraction.Present bundle.listing → ∀ keys, bundle.readListing = some keys →
    ∀ key ∈ bundle.lines keys, extraction.Done bundle key
  extracts : ∀ (n : Nat) (extract : Extract), extraction.extracts[n]? = some extract →
    extraction.ExtractSound bundle extract
  apart : ∀ (n m : Nat) (extract other : Extract) (random : Nat),
    extraction.extracts[n]? = some extract →
    extraction.extracts[m]? = some other → extract.random = some random →
    other.random = some random → n = m

theorem Present.congr {path : Path} (h : extraction.Present path)
    (htargets : ∀ path, next.files (.target path) = extraction.files (.target path)) :
    next.Present path := by
  unfold Present
  rw [htargets]
  exact h

theorem Done.mono {key : Text} (h : extraction.Done bundle key)
    (hgrows : ∀ path, extraction.Present path → next.Present path) : next.Done bundle key :=
  fun hkey => (h hkey).imp (hgrows _) id

theorem WriteSound.mono (h : extraction.WriteSound bundle write)
    (hgrows : ∀ path, extraction.Present path → next.Present path) :
    next.WriteSound bundle write := by
  unfold WriteSound at h ⊢
  split at h
  · exact ⟨h.1, h.2.1, fun key hkey => (h.2.2 key hkey).mono hgrows⟩
  · obtain ⟨hread, done, key, hlines, hkey, htarget, hdata, hdone⟩ := h
    exact ⟨hread, done, key, hlines, hkey, htarget, hdata,
      fun key hkey => (hdone key hkey).mono hgrows⟩

/-- A call is not disturbed by files that are moved into place, nor by those that others
write. -/
theorem ExtractSound.mono (h : extraction.ExtractSound bundle extract)
    (hgrows : ∀ path, extraction.Present path → next.Present path)
    (hdrawn : ∀ random ∈ extraction.drawn, random ∈ next.drawn)
    (htmp : ∀ target random, extract.random = some random →
      next.files (.tmp target random) = extraction.files (.tmp target random)) :
    next.ExtractSound bundle extract := by
  cases extract with
  | checking | reading | failed => trivial
  | next keys rest =>
    obtain ⟨hread, done, hlines, hdone⟩ := h
    exact ⟨hread, done, hlines, fun key hkey => (hdone key hkey).mono hgrows⟩
  | making write | creating write => exact WriteSound.mono h hgrows
  | writing write random written =>
    obtain ⟨hwrite, hmem, hfile⟩ := h
    exact ⟨hwrite.mono hgrows, hdrawn random hmem, (htmp write.target random rfl).trans hfile⟩
  | returned => exact fun keys hread key hkey => (h keys hread key hkey).mono hgrows
  | threw key => exact h

theorem Sound.apart_set (h : extraction.Sound bundle) (hnew : new.random = none)
    (m k : Nat) (extract other : Extract) (random : Nat)
    (hm : (extraction.extracts.set n new)[m]? = some extract)
    (hk : (extraction.extracts.set n new)[k]? = some other)
    (hextract : extract.random = some random)
    (hother : other.random = some random) : m = k := by
  have hsame : ∀ (m : Nat) (extract : Extract), (extraction.extracts.set n new)[m]? = some extract →
      extract.random = some random → extraction.extracts[m]? = some extract :=
    Pool.forall_set (fun hrandom => by simp [hnew] at hrandom)
      fun m extract _ hextract _ => hextract
  exact h.apart m k extract other random (hsame m extract hm hextract) (hsame k other hk hother)
    hextract hother

theorem Sound.put (h : extraction.Sound bundle) (hsound : extraction.ExtractSound bundle new)
    (hnew : new.random = none) : (extraction.put n new).Sound bundle :=
  ⟨h.given, h.listed, Pool.forall_set hsound fun m extract _ hother => h.extracts m extract hother,
    h.apart_set hnew⟩

theorem Sound.progress (h : extraction.Sound bundle) {random : Nat}
    (hextract : extraction.extracts[n]? = some old)
    (hextracts : next.extracts = extraction.extracts.set n new)
    (htargets : ∀ path, next.files (.target path) = extraction.files (.target path))
    (htmps : ∀ target other, other ≠ random →
      next.files (.tmp target other) = extraction.files (.tmp target other))
    (hdrawn : ∀ other ∈ extraction.drawn, other ∈ next.drawn)
    (hsound : next.ExtractSound bundle new)
    (hnew : new.random = some random)
    (hothers : ∀ (m : Nat) (extract : Extract), m ≠ n → extraction.extracts[m]? = some extract →
      extract.random ≠ some random) : next.Sound bundle := by
  have hgrows : ∀ path, extraction.Present path → next.Present path :=
    fun path hpresent => hpresent.congr htargets
  refine ⟨fun path data hfile => h.given path data (htargets path ▸ hfile),
    fun hpresent keys hread key hkey => ?_, ?_, ?_⟩
  · have hbefore : extraction.Present bundle.listing :=
      hpresent.congr fun path => (htargets path).symm
    exact (h.listed hbefore keys hread key hkey).mono hgrows
  · rw [hextracts]
    refine Pool.forall_set hsound fun m extract hne hother =>
      (h.extracts m extract hother).mono hgrows hdrawn ?_
    intro target other hrandom
    exact htmps target other fun heq => hothers m extract hne hother (heq ▸ hrandom)
  · intro m k extract other drawn hm hk hextract' hother
    rw [hextracts] at hm hk
    by_cases hmn : m = n <;> by_cases hkn : k = n
    · rw [hmn, hkn]
    · subst hmn
      rw [List.getElem?_set_ne (Ne.symm hkn)] at hk
      rw [Pool.set_self hextract] at hm
      cases hm
      rw [hnew] at hextract'
      exact absurd (hextract' ▸ hother) (hothers k other hkn hk)
    · subst hkn
      rw [List.getElem?_set_ne (Ne.symm hmn)] at hm
      rw [Pool.set_self hextract] at hk
      cases hk
      rw [hnew] at hother
      exact absurd (hother ▸ hextract') (hothers m extract hmn hm)
    · rw [List.getElem?_set_ne (Ne.symm hmn)] at hm
      rw [List.getElem?_set_ne (Ne.symm hkn)] at hk
      exact h.apart m k extract other drawn hm hk hextract' hother

theorem Sound.drawn (h : extraction.Sound bundle) {random : Nat}
    (hextract : extraction.extracts[n]? = some extract) (hrandom : extract.random = some random) :
    random ∈ extraction.drawn := by
  have hsound := h.extracts n extract hextract
  cases extract with
  | writing write drawn written =>
    cases hrandom
    exact hsound.2.1
  | _ => contradiction

theorem Sound.created (h : extraction.Sound bundle) {random : Nat}
    (hextract : extraction.extracts[n]? = some (.creating write))
    (hfresh : random ∉ extraction.drawn) :
    Sound bundle { extraction.put n (.writing write random 0) with
      files := Function.update extraction.files (.tmp write.target random) (some [])
      drawn := random :: extraction.drawn } := by
  have htargets : ∀ path, Function.update extraction.files (.tmp write.target random) (some [])
      (.target path) = extraction.files (.target path) :=
        fun path => Function.update_of_ne (by simp) ..
  refine h.progress hextract rfl htargets
    (fun target other hne => Function.update_of_ne (by simp [hne]) ..)
    (fun other hmem => List.mem_cons_of_mem _ hmem) ?_ rfl
    fun m extract hne hother hrandom => hfresh (h.drawn hother hrandom)
  exact ⟨WriteSound.mono (h.extracts n _ hextract) fun path hpresent => hpresent.congr htargets,
    List.mem_cons_self, by simp⟩

theorem Sound.appended (h : extraction.Sound bundle) {random written : Nat} (count : Nat)
    (hextract : extraction.extracts[n]? = some (.writing write random written)) :
    Sound bundle { extraction.put n (.writing write random (written + count)) with
      files := Function.update extraction.files (.tmp write.target random)
        ((extraction.files (.tmp write.target random)).map
          (· ++ (write.data.drop written).take count)) } := by
  obtain ⟨hwrite, hdrawn, hfile⟩ := h.extracts n _ hextract
  have htargets : ∀ path, Function.update extraction.files (.tmp write.target random)
      ((extraction.files (.tmp write.target random)).map
        (· ++ (write.data.drop written).take count))
      (.target path) = extraction.files (.target path) :=
        fun path => Function.update_of_ne (by simp) ..
  refine h.progress hextract rfl htargets
    (fun target other hne => Function.update_of_ne (by simp [hne]) ..)
    (fun other hmem => hmem) ?_ rfl
    fun m extract hne hother hrandom =>
      hne (h.apart m n extract _ random hother hextract hrandom rfl)
  exact ⟨hwrite.mono fun path hpresent => hpresent.congr htargets, hdrawn,
    by simp [hfile, List.take_add]⟩

/-- A file is moved into place whole, so what was there is only replaced by the same, and
the listing is only moved there once all it lists has been. -/
theorem Sound.renamed (h : extraction.Sound bundle) (hapart : bundle.Apart) {random written : Nat}
    (hextract : extraction.extracts[n]? = some (.writing write random written))
    (hwritten : write.data.length ≤ written) :
    Sound bundle { extraction.put n write.next with
      files := Function.update
        (Function.update extraction.files (.tmp write.target random) none) (.target write.target)
        (extraction.files (.tmp write.target random)) } := by
  obtain ⟨hwrite, hdrawn, hfile⟩ := h.extracts n _ hextract
  rw [List.take_of_length_le hwritten] at hfile
  have hmoved : ∀ path, Function.update
      (Function.update extraction.files (.tmp write.target random) none) (.target write.target)
      (extraction.files (.tmp write.target random)) (.target path) =
        if path = write.target then some write.data else extraction.files (.target path) := by
    intro path
    by_cases hpath : path = write.target
    · simp [hpath, hfile]
    · simp [hpath, Function.update_of_ne]
  have htmps : ∀ target other, other ≠ random → Function.update
      (Function.update extraction.files (.tmp write.target random) none) (.target write.target)
      (extraction.files (.tmp write.target random)) (.tmp target other) =
        extraction.files (.tmp target other) := by
    intro target other hne
    simp [Function.update_of_ne, hne]
  generalize hfiles : Function.update
    (Function.update extraction.files (.tmp write.target random) none) (.target write.target)
    (extraction.files (.tmp write.target random)) = files at hmoved htmps ⊢
  have hgrows : ∀ path, extraction.Present path →
      Present { extraction.put n write.next with files } path := by
    intro path hpresent
    simp only [Present, hmoved]
    split
    · rfl
    · exact hpresent
  have hnone : write.next.random = none := by
    unfold Write.next
    split <;> rfl
  have hwrite' := WriteSound.mono hwrite hgrows
  have htarget : Present { extraction.put n write.next with files } write.target := by
    simp [Present, hmoved]
  refine ⟨fun path data hdata => ?_, fun hpresent keys hread key hkey => ?_, ?_, h.apart_set hnone⟩
  · simp only [hmoved] at hdata
    split at hdata
    · rename_i hpath
      cases hdata
      unfold WriteSound at hwrite
      split at hwrite
      · exact Or.inl ⟨hpath.trans hwrite.1, hwrite.2.1⟩
      · obtain ⟨hread, done, key, hlines, hkey, htarget, hdata, -⟩ := hwrite
        exact Or.inr ⟨_, key, hread, by simp [hlines], hkey, hpath.trans htarget, hdata⟩
    · exact h.given path data hdata
  · unfold WriteSound at hwrite'
    split at hwrite'
    · have hkeys : write.data = keys := Option.some.inj (hwrite'.2.1.symm.trans hread)
      exact hwrite'.2.2 key (hkeys ▸ hkey)
    · obtain ⟨hlisting, done, listed, hlines, hlisted, htarget, -, -⟩ := hwrite'
      have hne : bundle.listing ≠ write.target := fun heq =>
        hapart _ listed hlisting (by simp [hlines]) hlisted (htarget.symm.trans heq.symm)
      simp only [Present, hmoved, if_neg hne] at hpresent
      exact (h.listed hpresent keys hread key hkey).mono hgrows
  · refine Pool.forall_set ?_ fun m extract hne hother =>
      (h.extracts m extract hother).mono hgrows (fun _ hmem => hmem)
        fun target other hrandom => htmps _ _ ?_
    · unfold WriteSound at hwrite'
      unfold Write.next
      split at hwrite'
      · intro keys hread key hkey
        have hkeys : write.data = keys := Option.some.inj (hwrite'.2.1.symm.trans hread)
        exact hwrite'.2.2 key (hkeys ▸ hkey)
      · obtain ⟨hread, done, key, hlines, hkey, hpath, hdata, hdone⟩ := hwrite'
        refine ⟨hread, done ++ [key], by simp [hlines], fun other hother => ?_⟩
        rcases List.mem_append.mp hother with hbefore | hlast
        · exact hdone other hbefore
        · rw [List.mem_singleton.mp hlast]
          exact fun _ => ⟨hpath ▸ htarget, by rw [hdata]; rfl⟩
    · rintro rfl
      exact hne (h.apart m n extract _ other hother hextract hrandom rfl)

theorem Sound.step (h : extraction.Sound bundle) (hapart : bundle.Apart) {label : ExtractStep}
    (hstep : extraction.step bundle label = some next) : next.Sound bundle := by
  cases move_step hstep with
  | start =>
    refine ⟨h.given, h.listed, Pool.forall_append trivial h.extracts, ?_⟩
    intro m k extract other random hm hk hextract hother
    have hsame :
        ∀ (m : Nat) (extract : Extract),
          (extraction.extracts ++ [Extract.checking])[m]? = some extract →
        extract.random = some random → extraction.extracts[m]? = some extract :=
      Pool.forall_append (fun hnew => by contradiction) fun m extract hextract _ => hextract
    exact h.apart m k extract other random (hsame m extract hm hextract) (hsame k other hk hother)
      hextract hother
  | found _ hlisting => exact h.put (h.listed hlisting) rfl
  | missing _ => exact h.put trivial rfl
  | unlisted _ hread =>
    refine h.put (fun keys hkeys => ?_) rfl
    rw [hread] at hkeys
    contradiction
  | listed _ hread => exact h.put ⟨hread, [], rfl, by simp⟩ rfl
  | last hextract =>
    obtain ⟨hread, done, hlines, hdone⟩ := h.extracts _ _ hextract
    rw [List.append_nil] at hlines
    exact h.put ⟨rfl, hread, hlines ▸ hdone⟩ rfl
  | blank hextract =>
    obtain ⟨hread, done, hlines, hdone⟩ := h.extracts _ _ hextract
    refine h.put ⟨hread, done ++ [[]], by simp [hlines], fun key hkey => ?_⟩ rfl
    rcases List.mem_append.mp hkey with hbefore | hlast
    · exact hdone key hbefore
    · exact fun hblank => absurd (List.mem_singleton.mp hlast) hblank
  | threw hextract hkey hread =>
    obtain ⟨hlisting, done, hlines, -⟩ := h.extracts _ _ hextract
    exact h.put ⟨hkey, hread, _, hlisting, by simp [hlines]⟩ rfl
  | key hextract hkey hread =>
    obtain ⟨hlisting, done, hlines, hdone⟩ := h.extracts _ _ hextract
    exact h.put ⟨hlisting, done, _, hlines, hkey, rfl, hread, hdone⟩ rfl
  | made hextract =>
    have hwrite := h.extracts _ _ hextract
    exact h.put hwrite rfl
  | created hextract hfresh => exact h.created hextract hfresh
  | appended hextract => exact h.appended _ hextract
  | renamed hextract hwritten => exact h.renamed hapart hextract hwritten
  | failed _ => exact h.put trivial rfl

theorem sound (hapart : bundle.Apart) (h : (system bundle).Reachable extraction) :
    extraction.Sound bundle := by
  refine h.invariant (I := Sound bundle) ?_ fun _ _ _ _ hsound hstep => hsound.step hapart hstep
  rintro _ rfl
  exact ⟨by simp, by simp [Present], by simp, by simp⟩

end Extraction

namespace Bundle

variable {bundle : Bundle}

theorem Named.paths (h : bundle.Named) : ∃ (directory : Path) (last : Text), Proper last ∧
    bundle.listing = directory ++ [last ++ assets] ∧
    ∀ key, key.head? = some '/' →
    (∀ segment ∈ split '/' key, segment ≠ ['.'] ∧ segment ≠ ['.', '.']) →
      bundle.target key = directory ++ last :: (split '/' key).tail.filter (· != []) := by
  obtain ⟨last, hlast, hproper⟩ := h
  obtain ⟨segments, hsegments⟩ := List.getLast?_eq_some_iff.mp hlast
  refine ⟨segments.foldl enterSegment ((split '/' bundle.resources).foldl enterSegment []),
    last, hproper, ?_, fun key hhead hdots => ?_⟩
  · have hassets : Proper (last ++ assets) := by
      refine ⟨by simp [assets], fun hdot => ?_, fun hdots => ?_⟩
      · have hlength := congrArg List.length hdot
        simp [assets] at hlength
      · have hlength := congrArg List.length hdots
        simp [assets] at hlength
    rw [listing, pathJoin_append hsegments, split_of_notMem (by decide : '/' ∉ assets)]
    exact enterSegment_proper hassets
  · cases key with
    | nil => contradiction
    | cons char rest =>
      cases hhead
      have hrest : ∀ segment ∈ split '/' rest, segment ≠ ['.'] ∧ segment ≠ ['.', '.'] :=
        fun segment hmem => hdots segment (by simp [split, hmem])
      rw [target, pathJoin_append hsegments]
      simp only [split, ↓reduceIte, List.tail_cons, List.headD_cons, List.append_nil]
      rw [enterSegment_proper hproper, foldl_enterSegment hrest]
      simp

theorem Named.apart (h : bundle.Named) (hlistable : bundle.Listable) : bundle.Apart := by
  obtain ⟨directory, last, -, hlisting, htarget⟩ := h.paths
  intro keys key hread hmem hkey hsame
  obtain ⟨hhead, hdots⟩ := hlistable keys key hread hmem hkey
  rw [htarget key hhead hdots, hlisting, List.append_cancel_left_eq, List.cons.injEq] at hsame
  have hlength := congrArg List.length hsame.1
  simp [assets] at hlength

theorem Named.target_injective (h : bundle.Named) (hlistable : bundle.Listable) {keys : Bytes}
    (hread : bundle.readListing = some keys) {key other : Text} (hkey : key ∈ bundle.lines keys)
    (hother : other ∈ bundle.lines keys) (hkey' : key ≠ []) (hother' : other ≠ [])
    (hplain : Plain key)
    (hplain' : Plain other) (hsame : bundle.target key = bundle.target other) : key = other := by
  obtain ⟨directory, last, -, -, htarget⟩ := h.paths
  obtain ⟨hhead, hdots⟩ := hlistable keys key hread hkey hkey'
  obtain ⟨hhead', hdots'⟩ := hlistable keys other hread hother hother'
  have hfilter :
      ∀ text, Plain text → (split '/' text).tail.filter (· != []) = (split '/' text).tail :=
    fun text htext => List.filter_eq_self.mpr fun segment hmem => by simpa using htext segment hmem
  rw [htarget key hhead hdots, htarget other hhead' hdots', hfilter key hplain,
    hfilter other hplain', List.append_cancel_left_eq, List.cons.injEq] at hsame
  apply split_injective '/'
  rw [← split_headD_tail, ← split_headD_tail '/' other, hsame.2]
  cases key with
  | nil => contradiction
  | cons char rest =>
    cases other with
    | nil => contradiction
    | cons char' rest' =>
      cases hhead
      cases hhead'
      simp [split]

end Bundle

/-- Where the listing is, all it lists is, and each file that is in place is one that
`readResource` gives for its path: the only one, if no two keys share the path. So a call that
returns leaves all that is listed, and one that throws leaves no listing. -/
theorem extract_allOrNothing (bundle : Bundle) (hnamed : bundle.Named) (hlistable : bundle.Listable)
    {extraction : Extraction} (h : (Extraction.system bundle).Reachable extraction) :
    (∀ path data, extraction.files (.target path) = some data → Extraction.Gives bundle path data) ∧
    (∀ keys key data, bundle.readListing = some keys →
      (∀ key ∈ bundle.lines keys, Bundle.Plain key) →
      key ∈ bundle.lines keys → key ≠ [] →
      extraction.files (.target (bundle.target key)) = some data →
      bundle.readKey key = some data) ∧
    (∀ keys key data, bundle.readListing = some keys → key ∈ bundle.lines keys → key ≠ [] →
      (∀ other ∈ bundle.lines keys, other ≠ [] → bundle.target other = bundle.target key →
        other = key) →
      extraction.files (.target (bundle.target key)) = some data → bundle.readKey key = some data) ∧
    (extraction.Present bundle.listing → ∀ keys key, bundle.readListing = some keys →
      key ∈ bundle.lines keys → key ≠ [] → extraction.Present (bundle.target key)) ∧
    (.returned ∈ extraction.extracts → ∀ keys key, bundle.readListing = some keys →
      key ∈ bundle.lines keys → key ≠ [] → extraction.Present (bundle.target key)) ∧
    ∀ key, .threw key ∈ extraction.extracts → ∀ labels last,
      (Extraction.system bundle).run extraction labels = some last →
      ¬ last.Present bundle.listing := by
  have hapart := hnamed.apart hlistable
  have hsound := Extraction.sound hapart h
  have halone : ∀ keys key data, bundle.readListing = some keys → key ∈ bundle.lines keys →
      key ≠ [] →
      (∀ other ∈ bundle.lines keys, other ≠ [] → bundle.target other = bundle.target key →
        other = key) →
      extraction.files (.target (bundle.target key)) = some data →
      bundle.readKey key = some data := by
    intro keys key data hread hmem hkey hone hfile
    rcases hsound.given _ _ hfile with ⟨hlisting, -⟩ | ⟨keys', other, hread', hmem',
      hother, hsame, hdata⟩
    · exact absurd hlisting (hapart keys key hread hmem hkey)
    · cases hread.symm.trans hread'
      rwa [← hone other hmem' hother hsame.symm]
  refine ⟨hsound.given, fun keys key data hread hplain hmem hkey => ?_, halone,
    fun hpresent keys key hread hmem hkey => ?_, fun hreturned keys key hread hmem hkey => ?_,
    fun key hthrew labels last hrun hpresent => ?_⟩
  · apply halone keys key data hread hmem hkey
    intro other hmem' hother hsame
    exact hnamed.target_injective hlistable hread hmem' hmem hother hkey (hplain other hmem')
      (hplain key hmem) hsame
  · exact (hsound.listed hpresent keys hread key hmem hkey).1
  · obtain ⟨n, hn⟩ := List.mem_iff_getElem?.mp hreturned
    exact (hsound.extracts n _ hn keys hread key hmem hkey).1
  · obtain ⟨n, hn⟩ := List.mem_iff_getElem?.mp hthrew
    obtain ⟨hkey, hnone, keys, hread, hmem⟩ := hsound.extracts n _ hn
    have hdone := (Extraction.sound hapart (h.run hrun)).listed hpresent keys hread key hmem hkey
    rw [hnone] at hdone
    exact absurd hdone.2 (by simp)

/-- A bundle `a.bundle` that lists `/x` and `/y`, in the resources `/r`. -/
def Bundle.ofTwo : Bundle where
  resources := ['/', 'r']
  filename := ['a', '.', 'b', 'u', 'n', 'd', 'l', 'e']
  extname _ := ['.', 'b', 'u', 'n', 'd', 'l', 'e']
  decode bytes := bytes.map fun byte => Char.ofNat byte.toNat
  readResource filename :=
    if filename = 'a' :: assets then some [47, 120, 10, 47, 121]
    else if filename = ['a', '/', 'x'] then some [1, 2]
    else if filename = ['a', '/', 'y'] then some [3]
    else none

theorem Bundle.ofTwo_listable : Bundle.ofTwo.Listable := by
  have hread : Bundle.ofTwo.readListing = some [47, 120, 10, 47, 121] := by decide +kernel
  intro keys key hkeys hmem _
  cases hread.symm.trans hkeys
  have hall : ∀ key ∈ Bundle.ofTwo.lines [47, 120, 10, 47, 121], key.head? = some '/' ∧
      ∀ segment ∈ split '/' key, segment ≠ ['.'] ∧ segment ≠ ['.', '.'] := by decide +kernel
  exact hall key hmem

/-- Two worklets extract it, and the second fails with half of `/x` written. -/
def Extraction.ofTwo : Extraction :=
  (Extraction.system Bundle.ofTwo).result {}
    [.start, .start, .onExtract 0, .onExtract 1, .onExtract 0, .onExtract 0,
      .onExtract 1, .onExtract 1, .onExtract 0, .onExtract 1, .create 0 5, .create 1 6, .append 0 1,
      .append 1 1, .fail 1, .append 0 1, .rename 0, .onExtract 0, .onExtract 0, .create 0 7,
      .append 0 1, .rename 0, .onExtract 0, .onExtract 0, .create 0 8, .append 0 5, .rename 0]
      (by decide +kernel)

theorem extract_allOrNothing_ofTwo :
    Extraction.ofTwo.Present (Bundle.ofTwo.target ['/', 'x']) ∧
    ∀ data, Extraction.ofTwo.files (.target (Bundle.ofTwo.target ['/', 'x'])) = some data →
      Bundle.ofTwo.readKey ['/', 'x'] = some data := by
  obtain ⟨-, hgiven, -, -, hreturned, -⟩ :=
    extract_allOrNothing Bundle.ofTwo ⟨['a'], by decide +kernel⟩
    Bundle.ofTwo_listable
    (.result (S := Extraction.system Bundle.ofTwo) rfl _ _ :
      (Extraction.system Bundle.ofTwo).Reachable Extraction.ofTwo)
  have hread : Bundle.ofTwo.readListing = some [47, 120, 10, 47, 121] := by decide +kernel
  have hmem : ['/', 'x'] ∈ Bundle.ofTwo.lines [47, 120, 10, 47, 121] := by decide +kernel
  exact ⟨hreturned (by decide +kernel) _ _ hread hmem (by decide),
    fun data => hgiven _ _ data hread (by decide +kernel) hmem (by decide)⟩

/-- A bundle `a.bundle` that lists `/x` and `//x`, which are two resources and one file. -/
def Bundle.ofSlashes : Bundle where
  resources := ['/', 'r']
  filename := ['a', '.', 'b', 'u', 'n', 'd', 'l', 'e']
  extname _ := ['.', 'b', 'u', 'n', 'd', 'l', 'e']
  decode bytes := bytes.map fun byte => Char.ofNat byte.toNat
  readResource filename :=
    if filename = 'a' :: assets then some [47, 120, 10, 47, 47, 120]
    else if filename = ['a', '/', 'x'] then some [1]
    else if filename = ['a', '/', '/', 'x'] then some [2]
    else none

theorem Bundle.ofSlashes_listable : Bundle.ofSlashes.Listable := by
  have hread : Bundle.ofSlashes.readListing = some [47, 120, 10, 47, 47, 120] := by decide +kernel
  intro keys key hkeys hmem _
  cases hread.symm.trans hkeys
  have hall : ∀ key ∈ Bundle.ofSlashes.lines [47, 120, 10, 47, 47, 120], key.head? = some '/' ∧
      ∀ segment ∈ split '/' key, segment ≠ ['.'] ∧ segment ≠ ['.', '.'] := by decide +kernel
  exact hall key hmem

/-- It is extracted, and the file has the contents of `//x`. -/
def Extraction.ofSlashes : Extraction :=
  (Extraction.system Bundle.ofSlashes).result {}
    [.start, .onExtract 0, .onExtract 0, .onExtract 0, .onExtract 0, .create 0 5,
      .append 0 1, .rename 0, .onExtract 0, .onExtract 0, .create 0 6, .append 0 1, .rename 0,
      .onExtract 0, .onExtract 0, .create 0 7, .append 0 6, .rename 0] (by decide +kernel)

/-- A bundle that is named like a directory, `a/`, and lists `/.assets` and `/x`. -/
def Bundle.ofDirectory : Bundle where
  resources := ['/', 'r']
  filename := ['a', '/']
  extname _ := []
  decode bytes := bytes.map fun byte => Char.ofNat byte.toNat
  readResource filename :=
    if filename = 'a' :: '/' :: assets then some [47, 46, 97, 115, 115, 101, 116, 115, 10, 47, 120]
    else if filename = 'a' :: '/' :: '/' :: assets then some [1]
    else if filename = ['a', '/', '/', 'x'] then some [2]
    else none

theorem Bundle.ofDirectory_listable : Bundle.ofDirectory.Listable := by
  have hread : Bundle.ofDirectory.readListing =
      some [47, 46, 97, 115, 115, 101, 116, 115, 10, 47, 120] := by decide +kernel
  intro keys key hkeys hmem _
  cases hread.symm.trans hkeys
  have hall : ∀ key ∈ Bundle.ofDirectory.lines [47, 46, 97, 115, 115, 101, 116, 115, 10, 47, 120],
      key.head? = some '/' ∧ ∀ segment ∈ split '/' key, segment ≠ ['.'] ∧ segment ≠ ['.', '.'] := by
    decide +kernel
  exact hall key hmem

def Extraction.ofDirectory : Extraction :=
  (Extraction.system Bundle.ofDirectory).result {}
    [.start, .onExtract 0, .onExtract 0, .onExtract 0, .onExtract 0, .create 0 5,
      .append 0 1, .rename 0]
    (by decide +kernel)

/-- A file does not always have the contents of each key of its path, nor is all that is listed in
place where the name of the bundle ends with a slash. -/
theorem extract_allOrNothing_notExact :
    ¬ (∀ bundle : Bundle, bundle.Listable → ∀ extraction,
      (Extraction.system bundle).Reachable extraction →
      ∀ keys key data, bundle.readListing = some keys → key ∈ bundle.lines keys → key ≠ [] →
        extraction.files (.target (bundle.target key)) = some data →
        bundle.readKey key = some data) ∧
    ¬ (∀ bundle : Bundle, bundle.Listable → ∀ extraction,
      (Extraction.system bundle).Reachable extraction →
      extraction.Present bundle.listing → ∀ keys key, bundle.readListing = some keys →
        key ∈ bundle.lines keys → key ≠ [] → extraction.Present (bundle.target key)) := by
  refine ⟨fun hexact => ?_, fun hwhole => ?_⟩
  · have hread : Bundle.ofSlashes.readKey ['/', 'x'] = some [2] :=
      hexact Bundle.ofSlashes Bundle.ofSlashes_listable Extraction.ofSlashes
        (.result (S := Extraction.system Bundle.ofSlashes) rfl _ _) [47, 120, 10, 47, 47, 120] _ _
        (by decide +kernel) (by decide +kernel) (by decide) (by decide +kernel)
    exact absurd hread (by decide +kernel)
  · have hpresent : Extraction.ofDirectory.Present (Bundle.ofDirectory.target ['/', 'x']) :=
      hwhole Bundle.ofDirectory Bundle.ofDirectory_listable Extraction.ofDirectory
        (.result (S := Extraction.system Bundle.ofDirectory) rfl _ _)
        (show (_ : Bool) = true by decide +kernel)
        [47, 46, 97, 115, 115, 101, 116, 115, 10, 47, 120] _ (by decide +kernel) (by decide +kernel)
        (by decide)
    exact absurd hpresent (show ¬ (_ : Bool) = true by decide +kernel)

end BareKit
