import BareKit.Extract

/-! The starts of the worklets of an application, any number of them and of any of its bundles,
which share the directory that their resources are extracted to. -/
namespace BareKit

/-- What the platform gives to `start`, the same for all the worklets, with the bundles that the
application comes with. The rest are functions of `path`, `URL` and `Buffer`. -/
structure Application (υ : Type*) where
  resources : Option Text
  readResource : Option (Text → Option Bytes)
  bundles : List Text
  extname : Text → Text
  decode : Bytes → Text
  isAbsolute : Text → Bool
  parse : Text → Option υ
  startsWithWindowsDriveLetter : Text → Bool
  pathToFileURL : Text → υ

/-- What a call of `start` does next. The call of `extract` that it is in is known by its number. -/
inductive OnStart (υ : Type*) where
  | extracting (call : Nat)
  | sourcing
  | resolving
  | reading (url : υ)
  | loaded (url : υ) (source : Bytes)
  | threw
  deriving DecidableEq

/-- `given` is the source that the host gave, if any. -/
structure Startup (υ : Type*) where
  filename : Text
  given : Option Bytes
  source : Option Bytes
  phase : OnStart υ
  deriving DecidableEq

/-- The filename that each call of `extract` is for, beside the calls. -/
structure Starting (υ : Type*) extends Extraction where
  filenames : List Text := []
  starts : List (Startup υ) := []

inductive StartStep where
  | start (filename : Text) (source : Option Bytes)
  | extract (step : ExtractStep)
  /-- A call goes on, and `readSync` gives what there is or throws. -/
  | onStart (n : Nat) (read : Option Bytes)

/-- The call of `extract` that a step is one of. -/
def ExtractStep.call : ExtractStep → Option Nat
  | .start => none
  | .onExtract n | .create n _ | .append n _ | .rename n | .fail n => some n

def pathText (path : Path) : Text := path.flatMap fun segment => '/' :: segment

namespace Application

variable {υ : Type*} (app : Application υ)

def isRelative (filename : Text) : Bool := !app.isAbsolute filename && (app.parse filename).isNone

def toURL (pathOrURL : Text) : υ :=
  if app.startsWithWindowsDriveLetter pathOrURL then app.pathToFileURL pathOrURL
  else (app.parse pathOrURL).getD (app.pathToFileURL pathOrURL)

def packed (filename : Text) : Bool :=
  app.resources.isSome && app.isRelative filename && app.readResource.isSome

/-- What `extract` is called with. -/
def bundle (filename : Text) : Bundle where
  resources := app.resources.getD []
  filename
  extname := app.extname
  decode := app.decode
  readResource := app.readResource.getD fun _ => none

/-- `path.join(resources, filename)`, if the filename is relative to them. -/
def located (filename : Text) : Text :=
  match app.resources with
  | some resources =>
    if app.isRelative filename then pathText (pathJoin resources filename) else filename
  | none => filename

def sourced (filename : Text) (source : Option Bytes) : Option Bytes :=
  if app.packed filename then source.or ((app.bundle filename).readResource filename) else source

end Application

namespace Starting

variable {υ : Type*} (app : Application υ)

def stepExtract (starting : Starting υ) (label : ExtractStep) : Option (Starting υ) :=
  label.call.bind fun n => starting.filenames[n]?.bind fun filename =>
    (starting.toExtraction.step (app.bundle filename) label).map fun extraction =>
      { starting with toExtraction := extraction }

def stepStart (starting : Starting υ) (start : Startup υ) (read : Option Bytes) :
    Option (Startup υ) :=
  match start.phase with
  | .extracting call =>
    match starting.extracts[call]? with
    | some .returned => some { start with phase := .sourcing }
    | some (.threw _) | some .failed => some { start with phase := .threw }
    | _ => none
  | .sourcing =>
    some { start with
      source := start.source.or ((app.bundle start.filename).readResource start.filename)
      phase := .resolving }
  | .resolving =>
    some { start with
      phase :=
        match start.source with
        | none => .reading (app.toURL (app.located start.filename))
        | some source => .loaded (app.toURL (app.located start.filename)) source }
  | .reading url =>
    some { start with
      phase :=
        match read with
        | none => .threw
        | some source => .loaded url source }
  | .loaded _ _ | .threw => none

def step (starting : Starting υ) : StartStep → Option (Starting υ)
  | .start filename source =>
    if app.packed filename then
      if filename ∈ app.bundles then
        some { starting with
          extracts := starting.extracts ++ [.checking]
          filenames := starting.filenames ++ [filename]
          starts := starting.starts ++
            [⟨filename, source, source, .extracting starting.extracts.length⟩] }
      else none
    else
      some { starting with starts := starting.starts ++ [⟨filename, source, source, .resolving⟩] }
  | .extract label => starting.stepExtract app label
  | .onStart n read =>
    starting.starts[n]?.bind fun start =>
      (starting.stepStart app start read).map fun next =>
        { starting with starts := starting.starts.set n next }

def system : Transition.System (Starting υ) StartStep where
  init starting := starting = {}
  step := step app

end Starting

def Clean (text : Text) : Prop := ∀ segment ∈ split '/' text, Proper segment

instance (text : Text) : Decidable (Clean text) := inferInstanceAs (Decidable (∀ _ ∈ _, _))

theorem Clean.pathJoin {text : Text} (h : Clean text) (directory : Text) :
    pathJoin directory text = (split '/' directory).foldl enterSegment [] ++ split '/' text := by
  rw [BareKit.pathJoin, foldl_enterSegment fun segment hmem => (h segment hmem).2]
  have hall : (split '/' text).filter (· != []) = split '/' text :=
    List.filter_eq_self.mpr fun segment hmem => by simpa using (h segment hmem).1
  rw [hall]

theorem Clean.pathJoin_inj {text other : Text} (h : Clean text) (hother : Clean other)
    {directory : Text}
    (hsame : BareKit.pathJoin directory text = BareKit.pathJoin directory other) :
    text = other := by
  rw [h.pathJoin, hother.pathJoin, List.append_cancel_left_eq] at hsame
  exact split_injective '/' hsame

namespace Application

variable {υ : Type*}

/-- The listings and what they list have clean paths, and no bundle lists the listing of one. -/
structure Tidy (app : Application υ) : Prop where
  listing : ∀ filename ∈ app.bundles, Clean ((app.bundle filename).name ++ assets)
  listed : ∀ filename ∈ app.bundles, ∀ keys key, (app.bundle filename).readListing = some keys →
    key ∈ (app.bundle filename).lines keys → key ≠ [] → Clean ((app.bundle filename).name ++ key)
  apart : ∀ filename ∈ app.bundles, ∀ other ∈ app.bundles, ∀ keys key,
    (app.bundle filename).readListing = some keys → key ∈ (app.bundle filename).lines keys →
    key ≠ [] →
    (app.bundle filename).name ++ key ≠ (app.bundle other).name ++ assets

theorem bundle_congr {app : Application υ} {filename other : Text}
    (hname : (app.bundle filename).name = (app.bundle other).name) :
    (app.bundle filename).readListing = (app.bundle other).readListing ∧
      (∀ key, (app.bundle filename).target key = (app.bundle other).target key) ∧
      ∀ key, (app.bundle filename).readKey key = (app.bundle other).readKey key := by
  simp only [Bundle.readListing, Bundle.target, Bundle.readKey, hname]
  exact ⟨rfl, fun _ => rfl, fun _ => rfl⟩

end Application

namespace Starting

variable {υ : Type*} {app : Application υ} {starting next : Starting υ}
    {extraction later : Extraction}
  {filename : Text}

def Extracted (app : Application υ) (extraction : Extraction) (filename : Text) : Prop :=
  ∀ keys, (app.bundle filename).readListing = some keys →
    ∀ key ∈ (app.bundle filename).lines keys, extraction.Done (app.bundle filename) key

/-- A file is a copy of the resource of its path. -/
def Mirrors (app : Application υ) (path : Path) (data : Bytes) : Prop :=
  ∃ text, Clean text ∧ path = pathJoin (app.resources.getD []) text ∧
    (app.readResource.getD fun _ => none) text = some data

def StartSound (app : Application υ) (starting : Starting υ) (start : Startup υ) : Prop :=
  match start.phase with
  | .extracting call => app.packed start.filename = true ∧ start.source = start.given ∧
      starting.filenames[call]? = some start.filename
  | .sourcing => app.packed start.filename = true ∧ start.source = start.given ∧
      Extracted app starting.toExtraction start.filename
  | .resolving => start.source = app.sourced start.filename start.given ∧
      (app.packed start.filename = true → Extracted app starting.toExtraction start.filename)
  | .reading url => app.sourced start.filename start.given = none ∧
      url = app.toURL (app.located start.filename) ∧
      (app.packed start.filename = true → Extracted app starting.toExtraction start.filename)
  | .loaded url source =>
    (∀ known, app.sourced start.filename start.given = some known → source = known) ∧
      url = app.toURL (app.located start.filename) ∧
      (app.packed start.filename = true → Extracted app starting.toExtraction start.filename)
  | .threw => True

structure Sound (app : Application υ) (starting : Starting υ) : Prop where
  mirrors : ∀ path data, starting.files (.target path) = some data → Mirrors app path data
  listed : ∀ filename ∈ app.bundles, starting.Present (app.bundle filename).listing →
    Extracted app starting.toExtraction filename
  length : starting.filenames.length = starting.extracts.length
  bundles : ∀ filename ∈ starting.filenames, filename ∈ app.bundles
  calls : ∀ (n : Nat) (filename : Text) (extract : Extract),
    starting.filenames[n]? = some filename →
    starting.extracts[n]? = some extract → starting.ExtractSound (app.bundle filename) extract
  apart : ∀ (n m : Nat) (extract other : Extract) (random : Nat),
    starting.extracts[n]? = some extract →
    starting.extracts[m]? = some other → extract.random = some random →
    other.random = some random → n = m
  starts : ∀ (n : Nat) (start : Startup υ), starting.starts[n]? = some start →
    StartSound app starting start ∧
    (app.packed start.filename = true → start.filename ∈ app.bundles)

theorem Extracted.mono (h : Extracted app extraction filename)
    (hgrows : ∀ path, extraction.Present path → later.Present path) :
    Extracted app later filename :=
  fun keys hread key hkey => (h keys hread key hkey).mono hgrows

theorem StartSound.mono {start : Startup υ} (h : StartSound app starting start)
    (hgrows : ∀ path, starting.Present path → next.Present path)
    (hfilenames : ∀ (n : Nat) filename, starting.filenames[n]? = some filename →
      next.filenames[n]? = some filename) :
    StartSound app next start := by
  unfold StartSound at h ⊢
  split at h
  · exact ⟨h.1, h.2.1, hfilenames _ _ h.2.2⟩
  · exact ⟨h.1, h.2.1, h.2.2.mono hgrows⟩
  · exact ⟨h.1, fun hpacked => (h.2 hpacked).mono hgrows⟩
  · exact ⟨h.1, h.2.1, fun hpacked => (h.2.2 hpacked).mono hgrows⟩
  · exact ⟨h.1, h.2.1, fun hpacked => (h.2.2 hpacked).mono hgrows⟩
  · trivial

theorem Sound.advance (h : Sound app starting) {n : Nat} {new : Extract}
    (hfilename : starting.filenames[n]? = some filename)
    (hextracts : later.extracts = starting.extracts.set n new)
    (hgrows : ∀ path, starting.Present path → later.Present path)
    (hdrawn : ∀ random ∈ starting.drawn, random ∈ later.drawn)
    (htmps : ∀ (m : Nat) (other : Extract) (random : Nat), m ≠ n →
      starting.extracts[m]? = some other →
      other.random = some random →
      new.random ≠ some random ∧
      ∀ target, later.files (.tmp target random) = starting.files (.tmp target random))
    (hmirrors : ∀ path data, later.files (.target path) = some data → Mirrors app path data)
    (hlisted : ∀ filename ∈ app.bundles, later.Present (app.bundle filename).listing →
      starting.Present (app.bundle filename).listing ∨ Extracted app later filename)
    (hnew : later.ExtractSound (app.bundle filename) new) :
    Sound app { starting with toExtraction := later } where
  mirrors := hmirrors
  listed other hother hpresent := by
    rcases hlisted other hother hpresent with hbefore | hextracted
    · exact (h.listed other hother hbefore).mono hgrows
    · exact hextracted
  length := by
    rw [hextracts, List.length_set]
    exact h.length
  bundles := h.bundles
  calls m other extract hother hextract := by
    have hset : (starting.extracts.set n new)[m]? = some extract := hextracts ▸ hextract
    revert hother
    apply Pool.forall_set (P := fun m extract => starting.filenames[m]? = some other →
      later.ExtractSound (app.bundle other) extract) ?_ ?_ m extract hset
    · intro hother
      cases hfilename.symm.trans hother
      exact hnew
    · intro m extract hm hextract hother
      refine (h.calls m other extract hother hextract).mono hgrows hdrawn
        fun target random hrandom => ?_
      exact (htmps m extract random hm hextract hrandom).2 target
  apart m k extract other random hm hk hextract hother := by
    have hsame : ∀ (m : Nat) (extract : Extract), later.extracts[m]? = some extract →
        extract.random = some random →
        m = n ∧ new.random = some random ∨ m ≠ n ∧ starting.extracts[m]? = some extract := by
      rw [hextracts]
      apply Pool.forall_set
      · exact fun hrandom => Or.inl ⟨rfl, hrandom⟩
      · exact fun m extract hm hextract _ => Or.inr ⟨hm, hextract⟩
    rcases hsame m extract hm hextract with ⟨rfl, hnew⟩ | ⟨hmn, hm⟩
    · rcases hsame k other hk hother with ⟨rfl, -⟩ | ⟨hkn, hk⟩
      · rfl
      · exact absurd hnew (htmps k other random hkn hk hother).1
    · rcases hsame k other hk hother with ⟨rfl, hnew⟩ | ⟨-, hk⟩
      · exact absurd hnew (htmps m extract random hmn hm hextract).1
      · exact h.apart m k extract other random hm hk hextract hother
  starts m start hstart :=
    (h.starts m start hstart).imp_left fun hstart => hstart.mono hgrows fun _ _ hsame => hsame

theorem drawn_of_random {bundle : Bundle} {extract : Extract} {random : Nat}
    (h : extraction.ExtractSound bundle extract) (hrandom : extract.random = some random) :
    random ∈ extraction.drawn := by
  cases extract with
  | writing write drawn written =>
    cases hrandom
    exact h.2.1
  | _ => contradiction

theorem Sound.drawn (h : Sound app starting) {n : Nat} {extract : Extract} {random : Nat}
    (hextract : starting.extracts[n]? = some extract) (hrandom : extract.random = some random) :
    random ∈ starting.drawn := by
  have hlt : n < starting.filenames.length := by
    rw [h.length]
    exact (List.getElem?_eq_some_iff.mp hextract).1
  exact drawn_of_random (h.calls n _ extract (List.getElem?_eq_getElem hlt) hextract) hrandom

theorem Sound.put (h : Sound app starting) {n : Nat} {new : Extract}
    (hfilename : starting.filenames[n]? = some filename)
    (hnew : starting.ExtractSound (app.bundle filename) new) (hrandom : new.random = none) :
    Sound app { starting with toExtraction := starting.toExtraction.put n new } := by
  apply h.advance hfilename rfl
  · exact fun path hpresent => hpresent
  · exact fun random hmem => hmem
  · exact fun m other random _ _ _ => ⟨by simp [hrandom], fun _ => rfl⟩
  · exact h.mirrors
  · exact fun _ _ hpresent => Or.inl hpresent
  · cases new <;> exact hnew

theorem Sound.created (h : Sound app starting) {n random : Nat} {write : Write}
    (hfilename : starting.filenames[n]? = some filename)
    (hextract : starting.extracts[n]? = some (.creating write)) (hfresh : random ∉ starting.drawn) :
    Sound app { starting with
      toExtraction := { starting.toExtraction.put n (.writing write random 0) with
        files := Function.update starting.files (.tmp write.target random) (some [])
        drawn := random :: starting.drawn } } := by
  have htargets : ∀ path, Function.update starting.files (.tmp write.target random) (some [])
      (.target path) = starting.files (.target path) :=
        fun path => Function.update_of_ne (by simp) ..
  apply h.advance hfilename rfl
  · exact fun path hpresent => hpresent.congr htargets
  · exact fun other hmem => List.mem_cons_of_mem _ hmem
  · intro m other drawn hm hother hrandom
    have hne : drawn ≠ random := fun heq => hfresh (heq ▸ h.drawn hother hrandom)
    exact ⟨fun hsame => hne (Option.some.inj hsame).symm,
      fun target => Function.update_of_ne (by simp [hne]) ..⟩
  · exact fun path data hfile => h.mirrors path data ((htargets path).symm.trans hfile)
  · exact fun other _ hpresent => Or.inl (hpresent.congr fun path => (htargets path).symm)
  · have hwrite : starting.WriteSound (app.bundle filename) write :=
      h.calls n filename _ hfilename hextract
    exact ⟨hwrite.mono fun path hpresent => hpresent.congr htargets, List.mem_cons_self, by simp⟩

theorem Sound.appended (h : Sound app starting) {n random written : Nat} (count : Nat)
    {write : Write}
    (hfilename : starting.filenames[n]? = some filename)
    (hextract : starting.extracts[n]? = some (.writing write random written)) :
    Sound app { starting with
      toExtraction := { starting.toExtraction.put n (.writing write random (written + count)) with
        files := Function.update starting.files (.tmp write.target random)
          ((starting.files (.tmp write.target random)).map
            (· ++ (write.data.drop written).take count)) } } := by
  obtain ⟨hwrite, hdrawn, hfile⟩ := h.calls n filename _ hfilename hextract
  have htargets : ∀ path, Function.update starting.files (.tmp write.target random)
      ((starting.files (.tmp write.target random)).map (· ++ (write.data.drop written).take count))
      (.target path) = starting.files (.target path) :=
        fun path => Function.update_of_ne (by simp) ..
  apply h.advance hfilename rfl
  · exact fun path hpresent => hpresent.congr htargets
  · exact fun other hmem => hmem
  · intro m other drawn hm hother hrandom
    have hne : drawn ≠ random := fun heq =>
      hm (h.apart m n other _ random hother hextract (heq ▸ hrandom) rfl)
    exact ⟨fun hsame => hne (Option.some.inj hsame).symm,
      fun target => Function.update_of_ne (by simp [hne]) ..⟩
  · exact fun path data hfile => h.mirrors path data ((htargets path).symm.trans hfile)
  · exact fun other _ hpresent => Or.inl (hpresent.congr fun path => (htargets path).symm)
  · exact ⟨hwrite.mono fun path hpresent => hpresent.congr htargets, hdrawn,
      by simp [hfile, List.take_add]⟩

theorem mirrors_write (htidy : app.Tidy) (hbundle : filename ∈ app.bundles) {write : Write}
    (h : extraction.WriteSound (app.bundle filename) write) :
    Mirrors app write.target write.data := by
  unfold Extraction.WriteSound at h
  split at h
  · exact ⟨_, htidy.listing filename hbundle, h.1, h.2.1⟩
  · obtain ⟨hread, done, key, hlines, hkey, htarget, hdata, -⟩ := h
    exact ⟨_, htidy.listed filename hbundle _ key hread (by simp [hlines]) hkey, htarget, hdata⟩

theorem extracted_write (htidy : app.Tidy) (hbundle : filename ∈ app.bundles) {other : Text}
    (hother : other ∈ app.bundles) {write : Write}
    (h : extraction.WriteSound (app.bundle filename) write)
    (hlisting : (app.bundle other).listing = write.target)
    (hwritten : ∀ key, extraction.Done (app.bundle filename) key →
      later.Done (app.bundle filename) key) :
    Extracted app later other := by
  have hclean := htidy.listing other hother
  unfold Extraction.WriteSound at h
  split at h
  · obtain ⟨htarget, hread, hdone⟩ := h
    have hname : (app.bundle filename).name = (app.bundle other).name := by
      have hsame :=
        (htidy.listing filename hbundle).pathJoin_inj hclean (htarget.symm.trans hlisting.symm)
      exact List.append_cancel_right hsame
    obtain ⟨hsame, htargets, hkeys⟩ := Application.bundle_congr hname
    intro keys hread' key hkey hne
    obtain rfl : write.data = keys := Option.some.inj (hread.symm.trans (hsame.trans hread'))
    have hthere := hwritten key (hdone key hkey) hne
    rwa [htargets, hkeys] at hthere
  · rename_i keys rest _
    obtain ⟨hread, done, key, hlines, hkey, htarget, -, -⟩ := h
    have hmem : key ∈ (app.bundle filename).lines keys := by simp [hlines]
    refine absurd ?_ (htidy.apart filename hbundle other hother _ key hread hmem hkey)
    exact (htidy.listed filename hbundle _ key hread hmem hkey).pathJoin_inj hclean
      (htarget.symm.trans hlisting.symm)

theorem Sound.renamed (h : Sound app starting) (htidy : app.Tidy) {n random written : Nat}
    {write : Write}
    (hfilename : starting.filenames[n]? = some filename)
    (hextract : starting.extracts[n]? = some (.writing write random written))
    (hwritten : write.data.length ≤ written) :
    Sound app { starting with
      toExtraction := { starting.toExtraction.put n write.next with
        files := Function.update
          (Function.update starting.files (.tmp write.target random) none) (.target write.target)
          (starting.files (.tmp write.target random)) } } := by
  obtain ⟨hwrite, hdrawn, hfile⟩ := h.calls n filename _ hfilename hextract
  rw [List.take_of_length_le hwritten] at hfile
  have hbundle : filename ∈ app.bundles := h.bundles filename (List.mem_of_getElem? hfilename)
  have hmoved : ∀ path, Function.update
      (Function.update starting.files (.tmp write.target random) none) (.target write.target)
      (starting.files (.tmp write.target random)) (.target path) =
        if path = write.target then some write.data else starting.files (.target path) := by
    intro path
    by_cases hpath : path = write.target
    · simp [hpath, hfile]
    · simp [hpath, Function.update_of_ne]
  have htmps : ∀ target other, other ≠ random → Function.update
      (Function.update starting.files (.tmp write.target random) none) (.target write.target)
      (starting.files (.tmp write.target random)) (.tmp target other) =
        starting.files (.tmp target other) := by
    intro target other hne
    simp [Function.update_of_ne, hne]
  generalize Function.update
    (Function.update starting.files (.tmp write.target random) none) (.target write.target)
    (starting.files (.tmp write.target random)) = files at hmoved htmps ⊢
  have hgrows : ∀ path, starting.Present path →
      Extraction.Present { starting.toExtraction.put n write.next with files } path := by
    intro path hpresent
    simp only [Extraction.Present, hmoved]
    split
    · rfl
    · exact hpresent
  have htarget :
      Extraction.Present { starting.toExtraction.put n write.next with files } write.target := by
    simp [Extraction.Present, hmoved]
  apply h.advance hfilename rfl hgrows
  · exact fun other hmem => hmem
  · intro m other drawn hm hother hrandom
    have hne : drawn ≠ random := fun heq =>
      hm (h.apart m n other _ random hother hextract (heq ▸ hrandom) rfl)
    refine ⟨?_, fun target => htmps target drawn hne⟩
    unfold Write.next
    split <;> simp [Extract.random]
  · intro path data hdata
    simp only [hmoved] at hdata
    split at hdata
    · rename_i hpath
      cases hdata
      exact hpath ▸ mirrors_write htidy hbundle hwrite
    · exact h.mirrors path data hdata
  · intro other hother hpresent
    by_cases hlisting : (app.bundle other).listing = write.target
    · exact Or.inr (extracted_write htidy hbundle hother hwrite hlisting
        fun key hdone => hdone.mono hgrows)
    · simp only [Extraction.Present, hmoved, if_neg hlisting] at hpresent
      exact Or.inl hpresent
  · have hwrite' := hwrite.mono hgrows
    unfold Extraction.WriteSound at hwrite'
    unfold Write.next
    split at hwrite'
    · intro keys hread key hkey
      obtain rfl : write.data = keys := Option.some.inj (hwrite'.2.1.symm.trans hread)
      exact hwrite'.2.2 key hkey
    · obtain ⟨hread, done, key, hlines, hkey, hpath, hdata, hdone⟩ := hwrite'
      refine ⟨hread, done ++ [key], by simp [hlines], fun other hother => ?_⟩
      rcases List.mem_append.mp hother with hbefore | hlast
      · exact hdone other hbefore
      · rw [List.mem_singleton.mp hlast]
        exact fun _ => ⟨hpath ▸ htarget, by rw [hdata]; rfl⟩

theorem Sound.extract (h : Sound app starting) (htidy : app.Tidy) {label : ExtractStep} {n : Nat}
    (hcall : label.call = some n) (hfilename : starting.filenames[n]? = some filename)
    (hmove : Extraction.Move (app.bundle filename) starting.toExtraction label later) :
    Sound app { starting with toExtraction := later } := by
  have hcalls := h.calls n filename
  cases hmove with
  | start => cases hcall
  | found hextract hlisting =>
    cases hcall
    exact h.put hfilename
      (h.listed filename (h.bundles filename (List.mem_of_getElem? hfilename)) hlisting) rfl
  | missing _ =>
    cases hcall
    exact h.put hfilename trivial rfl
  | unlisted _ hread =>
    cases hcall
    refine h.put hfilename (fun keys hkeys => ?_) rfl
    rw [hread] at hkeys
    contradiction
  | listed _ hread =>
    cases hcall
    exact h.put hfilename ⟨hread, [], rfl, by simp⟩ rfl
  | last hextract =>
    cases hcall
    obtain ⟨hread, done, hlines, hdone⟩ := hcalls _ hfilename hextract
    rw [List.append_nil] at hlines
    exact h.put hfilename ⟨rfl, hread, hlines ▸ hdone⟩ rfl
  | blank hextract =>
    cases hcall
    obtain ⟨hread, done, hlines, hdone⟩ := hcalls _ hfilename hextract
    refine h.put hfilename ⟨hread, done ++ [[]], by simp [hlines], fun key hkey => ?_⟩ rfl
    rcases List.mem_append.mp hkey with hbefore | hlast
    · exact hdone key hbefore
    · exact fun hblank => absurd (List.mem_singleton.mp hlast) hblank
  | threw hextract hkey hread =>
    cases hcall
    obtain ⟨hlisting, done, hlines, -⟩ := hcalls _ hfilename hextract
    exact h.put hfilename ⟨hkey, hread, _, hlisting, by simp [hlines]⟩ rfl
  | key hextract hkey hread =>
    cases hcall
    obtain ⟨hlisting, done, hlines, hdone⟩ := hcalls _ hfilename hextract
    exact h.put hfilename ⟨hlisting, done, _, hlines, hkey, rfl, hread, hdone⟩ rfl
  | made hextract =>
    cases hcall
    have hwrite := hcalls _ hfilename hextract
    exact h.put hfilename hwrite rfl
  | created hextract hfresh =>
    cases hcall
    exact h.created hfilename hextract hfresh
  | appended hextract =>
    cases hcall
    exact h.appended _ hfilename hextract
  | renamed hextract hwritten =>
    cases hcall
    exact h.renamed htidy hfilename hextract hwritten
  | failed _ =>
    cases hcall
    exact h.put hfilename trivial rfl

theorem Sound.start (h : Sound app starting) {source : Option Bytes}
    (hstep : starting.step app (.start filename source) = some next) : Sound app next := by
  simp only [step] at hstep
  split at hstep
  · rename_i hpacked
    simp only [Option.ite_none_right_eq_some, Option.some.injEq] at hstep
    obtain ⟨hbundle, rfl⟩ := hstep
    have hsame :
        ∀ (m : Nat) (extract : Extract),
          (starting.extracts ++ [Extract.checking])[m]? = some extract →
        extract.random ≠ none → starting.extracts[m]? = some extract :=
      Pool.forall_append (fun hrandom => absurd rfl hrandom) fun m extract hextract _ => hextract
    constructor
    case mirrors => exact h.mirrors
    case listed => exact h.listed
    case length => simp [h.length]
    case bundles =>
      intro other hother
      rcases List.mem_append.mp hother with hbefore | hlast
      · exact h.bundles other hbefore
      · exact List.mem_singleton.mp hlast ▸ hbundle
    case calls =>
      intro m other extract hother hextract
      revert hother
      apply Pool.forall_append
          (P := fun m extract => (starting.filenames ++ [filename])[m]? = some other →
        starting.ExtractSound (app.bundle other) extract) ?_ ?_ m extract hextract
      · exact fun _ => trivial
      · intro m extract hextract hother
        have hlt := (List.getElem?_eq_some_iff.mp hextract).1
        rw [List.getElem?_append_left (h.length ▸ hlt)] at hother
        exact h.calls m other extract hother hextract
    case apart =>
      intro m k extract other random hm hk hextract hother
      exact h.apart m k extract other random (hsame m extract hm (by simp [hextract]))
        (hsame k other hk (by simp [hother])) hextract hother
    case starts =>
      apply Pool.forall_append
      · exact ⟨⟨hpacked, rfl, by simp [← h.length]⟩, fun _ => hbundle⟩
      · intro m start hstart
        refine (h.starts m start hstart).imp_left fun hsound =>
          hsound.mono (fun _ hpresent => hpresent) fun m other hother => ?_
        rw [List.getElem?_append_left (List.getElem?_eq_some_iff.mp hother).1]
        exact hother
  · rename_i hpacked
    cases hstep
    refine { h with starts := Pool.forall_append ?_ fun m start hstart => ?_ }
    · simp [StartSound, Application.sourced, hpacked]
    · exact (h.starts m start hstart).imp_left fun hsound =>
        hsound.mono (fun _ hpresent => hpresent) fun _ _ hsame => hsame

theorem StartSound.stepStart {start later : Startup υ} {read : Option Bytes}
    (h : StartSound app starting start)
    (hsound : Sound app starting) (hstep : starting.stepStart app start read = some later) :
    StartSound app starting later ∧ later.filename = start.filename := by
  unfold Starting.stepStart at hstep
  unfold StartSound at h
  split at hstep
  · rename_i call hphase
    simp only [hphase] at h
    obtain ⟨hpacked, hsource, hfilename⟩ := h
    split at hstep <;> cases hstep
    · rename_i hreturned
      exact ⟨⟨hpacked, hsource, hsound.calls call _ _ hfilename hreturned⟩, rfl⟩
    all_goals exact ⟨trivial, rfl⟩
  · rename_i hphase
    simp only [hphase] at h
    cases hstep
    obtain ⟨hpacked, hsource, hextracted⟩ := h
    exact ⟨⟨by simp [Application.sourced, hpacked, hsource], fun _ => hextracted⟩, rfl⟩
  · rename_i hphase
    simp only [hphase] at h
    cases hstep
    obtain ⟨hsource, hextracted⟩ := h
    refine ⟨?_, rfl⟩
    cases hknown : start.source with
    | none => exact ⟨by simp [← hsource, hknown], rfl, hextracted⟩
    | some source =>
      exact ⟨fun known hsome => by simpa [hknown, hsome] using hsource, rfl, hextracted⟩
  · rename_i url hphase
    simp only [hphase] at h
    cases hstep
    obtain ⟨hsource, hurl, hextracted⟩ := h
    refine ⟨?_, rfl⟩
    cases read with
    | none => trivial
    | some source => exact ⟨fun known hsome => by simp [hsource] at hsome, hurl, hextracted⟩
  · cases hstep
  · cases hstep

theorem Sound.step (h : Sound app starting) (htidy : app.Tidy) {label : StartStep}
    (hstep : starting.step app label = some next) : Sound app next := by
  cases label with
  | start filename source => exact h.start hstep
  | extract label =>
    simp only [Starting.step, stepExtract] at hstep
    obtain ⟨n, hcall, hstep⟩ := Option.bind_eq_some_iff.mp hstep
    obtain ⟨filename, hfilename, hstep⟩ := Option.bind_eq_some_iff.mp hstep
    obtain ⟨later, hlater, rfl⟩ := Option.map_eq_some_iff.mp hstep
    exact h.extract htidy hcall hfilename (Extraction.move_step hlater)
  | onStart n read =>
    simp only [Starting.step] at hstep
    obtain ⟨start, hstart, hstep⟩ := Option.bind_eq_some_iff.mp hstep
    obtain ⟨later, hlater, rfl⟩ := Option.map_eq_some_iff.mp hstep
    obtain ⟨hsound, hbundle⟩ := h.starts n start hstart
    obtain ⟨hnew, hsame⟩ := hsound.stepStart h hlater
    refine { h with starts := Pool.forall_set ?_ fun m other _ hother => ?_ }
    · exact ⟨hnew.mono (fun _ hpresent => hpresent) fun _ _ hsame => hsame, by rwa [hsame]⟩
    · exact (h.starts m other hother).imp_left fun hsound =>
        hsound.mono (fun _ hpresent => hpresent) fun _ _ hsame => hsame

theorem sound (htidy : app.Tidy) (h : (system app).Reachable starting) : Sound app starting := by
  refine h.invariant (I := Sound app) ?_ fun _ _ _ _ hsound hstep => hsound.step htidy hstep
  rintro _ rfl
  exact ⟨by simp, by simp [Extraction.Present], rfl, by simp, by simp, by simp, by simp⟩

theorem Sound.present (h : Sound app starting) {label : StartStep}
    (hstep : starting.step app label = some next)
    {path : Path} (hpresent : starting.Present path) : next.Present path := by
  cases label with
  | start filename source =>
    simp only [Starting.step] at hstep
    split at hstep
    · simp only [Option.ite_none_right_eq_some, Option.some.injEq] at hstep
      obtain ⟨-, rfl⟩ := hstep
      exact hpresent
    · cases hstep
      exact hpresent
  | extract label =>
    simp only [Starting.step, stepExtract] at hstep
    obtain ⟨n, hcall, hstep⟩ := Option.bind_eq_some_iff.mp hstep
    obtain ⟨filename, hfilename, hstep⟩ := Option.bind_eq_some_iff.mp hstep
    obtain ⟨later, hlater, rfl⟩ := Option.map_eq_some_iff.mp hstep
    cases Extraction.move_step hlater with
    | created _ _ | appended _ => simpa [Extraction.Present, Function.update_of_ne] using hpresent
    | renamed hextract hwritten =>
      cases hcall
      obtain ⟨-, -, hfile⟩ := h.calls _ filename _ hfilename hextract
      simp only [Extraction.Present, Function.update_apply]
      split
      · simp [hfile]
      · simpa [Extraction.Present] using hpresent
    | _ => exact hpresent
  | onStart n read =>
    simp only [Starting.step] at hstep
    obtain ⟨start, -, hstep⟩ := Option.bind_eq_some_iff.mp hstep
    obtain ⟨later, -, rfl⟩ := Option.map_eq_some_iff.mp hstep
    exact hpresent

end Starting

end BareKit
