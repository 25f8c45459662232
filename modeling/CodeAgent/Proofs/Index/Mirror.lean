import CodeAgent.Host.Usual
import CodeAgent.Proofs.Index.Success

namespace CodeAgent.SemanticIndex

open Source Disk

variable {f : Text → Vector64} {e : Embedder} {disks : List Disk} {ix ix' : SemanticIndex} {d : Disk}

variable {visits : List Visit} {p : Path} {name : Text}

theorem Rooted.congr (h : ix.Rooted) (hr : ix'.root = ix.root) : ix'.Rooted := ⟨hr ▸ h.root, hr ▸ h.clean⟩

/-- A path that leads out of the workspace on all disks if it does on one. -/
def Steady (disks : List Disk) (ix : SemanticIndex) (p : Path) : Prop :=
  ∀ d₁ ∈ disks, ix.relative d₁ p = .ok (ix.root.join p).text →
    ∀ d₂ ∈ disks, ix.relative d₂ p = .ok (ix.root.join p).text

theorem steady_of_eq (h : ∀ d₁ ∈ disks, ∀ d₂ ∈ disks, ix.relative d₂ p = ix.relative d₁ p) : Steady disks ix p := by
  intro d₁ hd₁ hn d₂ hd₂
  rw [h d₁ hd₁ d₂ hd₂, hn]

/-- Where there are no links at all, every path is steady. -/
theorem steady_of_linkless (h : ∀ d' ∈ disks, d'.Linkless) (p : Path) : Steady disks ix p := by
  refine steady_of_eq fun d₁ hd₁ d₂ hd₂ => ?_
  unfold relative
  dsimp only
  rw [resolve_linkless (h d₂ hd₂) (h d₁ hd₁)]

/-- A path to a place of the workspace is steady. -/
theorem Rooted.steady_below (h : ix.Rooted) (hu : ∀ d' ∈ disks, d'.Unlinked ix.root.parts) {rest : Place}
    (hp : ix.root.join p = ix.below rest) (hr : ∀ name ∈ ix.root.parts ++ rest, IsName name) :
    Steady disks ix p := by
  have hsame : ∀ d', ix.relative d' p = ix.relative d' (ix.below rest) := by
    intro d'
    unfold relative
    rw [hp]
    rfl
  refine steady_of_eq fun d₁ hd₁ d₂ hd₂ => ?_
  rw [hsame, hsame]
  exact h.relative_below_congr (hu d₁ hd₁) (hu d₂ hd₂) hr

theorem Steady.congr (h : Steady disks ix p) (hr : ix'.root = ix.root) : Steady disks ix' p := by
  intro d₁ hd₁ hn d₂ hd₂
  rw [relative_congr hr, hr] at hn ⊢
  exact h d₁ hd₁ hn d₂ hd₂

theorem Rooted.own (h : ix.Rooted) (hu : ∀ d' ∈ disks, d'.Unlinked ix.root.parts) (hp : p.Written)
    (hd : d ∈ disks) (hn : ix.relative d p = .ok name) (hs : Steady disks ix p) : Own disks ix name := by
  intro d' hd'
  refine h.relative_name hp hn (hu d' hd') fun he => ?_
  subst he
  exact hs d hd hn d' hd'

/-- What a scan yields is listed under a name that leads back to it. -/
theorem Rooted.listed (h : ix.Rooted) (hu : ∀ d' ∈ disks, d'.Unlinked ix.root.parts) (hd : d ∈ disks)
    (hp : p ∈ sources d ix) :
    ∃ name, Listed disks d ix p name ∧ ix.root.join (Path.ofText name) = p := by
  obtain ⟨rest, rfl, hnames, hthere⟩ := mem_sourceFiles (hu d hd) h.clean h.root hp
  change ∃ name, Listed disks d ix (ix.below rest) name ∧ _ = ix.below rest
  have hnamed : ∃ name, ix.relative d (ix.below rest) = .ok name := by
    rcases h.relative_below (hu d hd) hnames with ⟨-, hn⟩ | ⟨-, hn⟩
    · exact ⟨_, hn⟩
    · exact ⟨_, hn⟩
  obtain ⟨name, hn⟩ := hnamed
  have hwritten : (ix.below rest).Written := ⟨Or.inr (Or.inl rfl), fun part hm => (hnames part hm).toIsPart⟩
  have hjoin := h.join_name (hu d hd) hnames hn
  refine ⟨name, ⟨hn, ?_, ?_⟩, hjoin⟩
  · exact h.own hu hwritten hd hn (h.steady_below hu rfl hnames)
  · rw [hjoin]
    exact readSource_ne_missing (hu d hd).tree ((hu d hd).plain hnames) hthere

theorem Rooted.sources_own (h : ix.Rooted) (hu : ∀ d' ∈ disks, d'.Unlinked ix.root.parts) (hd : d ∈ disks) :
    ∀ p ∈ sources d ix, ∀ name, ix.relative d p = .ok name → Own disks ix name :=
  own_of_listed fun _ hp => (h.listed hu hd hp).imp fun _ hl => hl.1

/-- The names that a call with a steady path comes to are their own. -/
theorem Rooted.call_own {call : IndexCall} (h : ix.Rooted) (hu : ∀ d' ∈ disks, d'.Unlinked ix.root.parts)
    (hd : d ∈ disks)
    (hs : ∀ path, call.path? = some path → Steady disks ix (Path.ofText path)) :
    ∀ path, call.path? = some path → ∀ name, ix.relative d (Path.ofText path) = .ok name → Own disks ix name :=
  fun path hpath _ hn => h.own hu (Path.written_ofText path) hd hn (hs path hpath)

section
def disksOf (visits : List Visit) (d : Disk) : List Disk := visits.map (·.disk) ++ [d]

theorem mem_disksOf (visits : List Visit) (d : Disk) : d ∈ disksOf visits d :=
  List.mem_append_right _ List.mem_cons_self

theorem sources_congr (h : ix'.root = ix.root) (d : Disk) : sources d ix' = sources d ix := by
  unfold sources
  rw [h]

variable [Host]

theorem Tracks.visit {v : Visit} (h : Tracks f disks ix) (hc : Computes e f) (hr : ix.Rooted)
    (hu : ∀ d' ∈ disks, d'.Unlinked ix.root.parts) (hd : v.disk ∈ disks)
    (hs : ∀ path, v.call.path? = some path → Steady disks ix (Path.ofText path)) :
    (ix.visit e v).root = ix.root ∧ Tracks f disks (ix.visit e v) := by
  obtain ⟨d, call⟩ := v
  have hown := hr.call_own hu hd hs
  cases call with
  | indexFile path persist => exact h.indexFile persist hc hd (hown path rfl)
  | removeFile path persist => exact h.removeFile persist (hown path rfl)
  | indexWorkspace => exact h.indexWorkspace hc hd (hr.sources_own hu hd)

/-- What each of the calls keeps holds after all of them. -/
theorem after_keeps {I : SemanticIndex → Prop} (hstep : ∀ ix', I ix' → ∀ v ∈ visits, I (ix'.visit e v)) (h : I ix) :
    I (ix.after e visits) :=
  List.foldlRecOn visits (visit e) h hstep

/-- Whatever calls an index got, its store is faithful to the texts that it met. -/
theorem Tracks.after (h : Tracks f disks ix) (hc : Computes e f) (hr : ix.Rooted)
    (hu : ∀ d' ∈ disks, d'.Unlinked ix.root.parts) (hd : ∀ v ∈ visits, v.disk ∈ disks)
    (hs : ∀ v ∈ visits, ∀ path, v.call.path? = some path → Steady disks ix (Path.ofText path)) :
    (ix.after e visits).root = ix.root ∧ Tracks f disks (ix.after e visits) := by
  refine after_keeps (I := fun ix' => ix'.root = ix.root ∧ Tracks f disks ix') ?_ ⟨rfl, h⟩
  rintro ix' ⟨hroot, htracks⟩ v hv
  obtain ⟨hroot', htracks'⟩ := htracks.visit hc (hr.congr hroot) (hroot.symm ▸ hu) (hd v hv)
    fun path hpath => (hs v hv path hpath).congr hroot
  exact ⟨hroot'.trans hroot, htracks'⟩

/-- The texts whose digests are compared: those of the files that were met, and of their chunks. -/
inductive Occurs (met : Text → Text → Prop) : Text → Prop where
  | file {name source : Text} (hm : met name source) : Occurs met source
  | chunk {c : Chunk} (hc : IsChunk met c) : Occurs met c.text

def CollisionFree (met : Text → Text → Prop) : Prop :=
  ∀ t t', Occurs met t → Occurs met t' → hashText t = hashText t' → t = t'

/-- What is assumed of an index, of the calls that it got and of the disks that they saw. -/
structure Regular (f : Text → Vector64) (e : Embedder) (ix : SemanticIndex) (visits : List Visit) (d : Disk) :
    Prop where
  computes : Computes e f
  empty : ix.store = {}
  resolved : ∃ d₀ given, resolve d₀ (Path.ofText given) = .ok ix.root
  unlinked : ∀ d' ∈ disksOf visits d, d'.Unlinked ix.root.parts
  steady : ∀ v ∈ visits, ∀ path, v.call.path? = some path → Steady (disksOf visits d) ix (Path.ofText path)
  collisionFree : CollisionFree (Met (disksOf visits d) ix.root)

theorem Regular.rooted (h : Regular f e ix visits d) : ix.Rooted := by
  obtain ⟨d₀, given, hresolved⟩ := h.resolved
  exact rooted_of_resolve hresolved

theorem Regular.tracks (h : Regular f e ix visits d) :
    (ix.after e visits).root = ix.root ∧ Tracks f (disksOf visits d) (ix.after e visits) := by
  have hvisits : ∀ v ∈ visits, v.disk ∈ disksOf visits d :=
    fun v hv => List.mem_append_left _ (List.mem_map_of_mem hv)
  exact (tracks_empty h.empty).after h.computes h.rooted h.unlinked hvisits h.steady

/-- A source file on a disk: its name in the store, its text, and the statements of it. -/
def IsSource (d : Disk) (ix : SemanticIndex) (name source : Text) (file : List Stmt) : Prop :=
  ∃ p ∈ sources d ix, ix.relative d p = .ok name ∧ d.readText p = .ok source ∧ parse .loop source = .ok file

theorem Rooted.met_of_isSource (h : ix.Rooted) (hu : ∀ d' ∈ disks, d'.Unlinked ix.root.parts) (hd : d ∈ disks) :
    ∀ name source file, IsSource d ix name source file → Met disks ix.root name source := by
  rintro name source file ⟨p, hp, hn, hread, -⟩
  obtain ⟨name', hl, hjoin⟩ := h.listed hu hd hp
  rw [hl.named] at hn
  cases hn
  exact ⟨d, hd, by rwa [hjoin]⟩

/-- The store holds the source files on a disk, and nothing else, as far as a view of chunks can tell. -/
structure Mirrors (view : Chunk → Chunk) (f : Text → Vector64) (d : Disk) (ix : SemanticIndex) : Prop where
  complete : ∀ p ∈ sources d ix, ∃ name source file,
    ix.relative d p = .ok name ∧ d.readText p = .ok source ∧ parse .loop source = .ok file
  hashes : ∀ name hash, ix.store.hash? name = some hash ↔
    ∃ source file, IsSource d ix name source file ∧ hash = hashText source
  records : ∀ c v, (∃ r ∈ ix.store.records, view r.chunk = c ∧ r.vector = v) ↔
    ∃ name source file, IsSource d ix name source file ∧
      ∃ c' ∈ chunks name source file, view c' = c ∧ f c'.text = v
  distinct : ix.store.Distinct

section
variable {met : Text → Text → Prop} {s : Store} {source : Text} {file : List Stmt} {r : StoredChunk} {c : Chunk}

/-- A record with the id and the digest of a chunk holds it but for kind and name. -/
theorem Faithful.unlabelled_eq (h : Faithful f met s) (hmet : Unified met) (hfree : CollisionFree met)
    (hr : r ∈ s.records) (hc : IsChunk met c) (hid : r.chunk.id = c.id) (hhash : r.chunk.hash = c.hash) :
    r.chunk.unlabelled = c.unlabelled ∧ r.vector = f c.text := by
  obtain ⟨hdrawn, hvector⟩ := h.drawn r hr
  have hcoherent := hdrawn.coherent hmet
  have hcoherent' := hc.coherent hmet
  have htext : r.chunk.text = c.text := by
    refine hfree _ _ (.chunk hdrawn) (.chunk hc) ?_
    rw [← hcoherent.hash, ← hcoherent'.hash, hhash]
  exact ⟨hcoherent.unlabelled_eq hcoherent' hid htext, hvector.trans (congrArg f htext)⟩

/-- Of a file with a known digest the store holds just the chunks of the text with that digest. -/
theorem Faithful.agree (h : Faithful f met s) (hfree : CollisionFree met) (hm : met name source)
    (hp : parse .loop source = .ok file) (hh : s.hash? name = some (hashText source)) :
    Agree (s.recordsFor name) (chunks name source file) := by
  obtain ⟨source', file', hm', hp', hhash, hagree⟩ := h.hashed name _ hh
  obtain rfl : source = source' := hfree _ _ (.file hm) (.file hm') hhash
  rw [hp] at hp'
  cases hp'
  exact hagree

theorem isChunk_of_mem (hmet : Unified met) (hm : met name source) (hp : parse .loop source = .ok file)
    (hc : c ∈ chunks name source file) : IsChunk met c := by
  have hpath := (chunks_coherent (hmet _ _ hm) hp c hc).path
  exact ⟨source, file, by rwa [hpath], hp, by rwa [hpath]⟩

end

/-- A faithful store in which just the names of the source files have a digest, all of them current. -/
theorem Tracks.mirrors (h : Tracks f disks ix) (hr : ix.Rooted) (hu : ∀ d' ∈ disks, d'.Unlinked ix.root.parts)
    (hd : d ∈ disks) (hfree : CollisionFree (Met disks ix.root))
    (hcurrent : ∀ p ∈ sources d ix, ∀ name, ix.relative d p = .ok name → Current d ix name)
    (hnames : ∀ name, ix.store.hash? name ≠ none → ∃ p ∈ sources d ix, ix.relative d p = .ok name) :
    Mirrors Chunk.unlabelled f d ix := by
  have hmet := met_unified disks ix.root
  have hsource : ∀ p ∈ sources d ix, ∀ name, ix.relative d p = .ok name → ∃ source file,
      d.readText p = .ok source ∧ parse .loop source = .ok file ∧ Met disks ix.root name source ∧
      ix.store.hash? name = some (hashText source) := by
    intro p hp name hn
    obtain ⟨source, hread, hhash⟩ := hcurrent p hp name hn
    have hm : Met disks ix.root name source := ⟨d, hd, hread⟩
    obtain ⟨source', file, hm', hparse, hhash', -⟩ := h.faithful.hashed name _ hhash
    obtain rfl : source = source' := hfree _ _ (.file hm) (.file hm') hhash'
    obtain ⟨name', hl, hjoin⟩ := hr.listed hu hd hp
    rw [hl.named] at hn
    cases hn
    rw [hjoin] at hread
    exact ⟨source, file, hread, hparse, hm, hhash⟩
  have hknown : ∀ {name source file}, IsSource d ix name source file →
      Met disks ix.root name source ∧ ix.store.hash? name = some (hashText source) := by
    rintro name source file ⟨p, hp, hn, hread, -⟩
    obtain ⟨source', -, hread', -, hm, hhash⟩ := hsource p hp name hn
    rw [hread] at hread'
    cases hread'
    exact ⟨hm, hhash⟩
  refine ⟨?_, ?_, ?_, h.faithful.distinct⟩
  · intro p hp
    obtain ⟨name, hl, -⟩ := hr.listed hu hd hp
    obtain ⟨source, file, hread, hparse, -⟩ := hsource p hp name hl.named
    exact ⟨name, source, file, hl.named, hread, hparse⟩
  · intro name hash
    constructor
    · intro hh
      obtain ⟨p, hp, hn⟩ := hnames name (by rw [hh]; simp)
      obtain ⟨source, file, hread, hparse, -, hhash⟩ := hsource p hp name hn
      rw [hh] at hhash
      cases hhash
      exact ⟨source, file, ⟨p, hp, hn, hread, hparse⟩, rfl⟩
    · rintro ⟨source, file, hs, rfl⟩
      exact (hknown hs).2
  · intro c v
    constructor
    · rintro ⟨r, hrs, rfl, rfl⟩
      obtain ⟨p, hp, hn⟩ := hnames _ (h.faithful.known r hrs)
      obtain ⟨source, file, hread, hparse, hm, hhash⟩ := hsource p hp _ hn
      obtain ⟨c, hc, hid, hch⟩ := (h.faithful.agree hfree hm hparse hhash).needed r
        (Store.mem_recordsFor.mpr ⟨hrs, rfl⟩)
      obtain ⟨hchunk, hvector⟩ := h.faithful.unlabelled_eq hmet hfree hrs
        (isChunk_of_mem hmet hm hparse hc) hid hch
      exact ⟨_, source, file, ⟨p, hp, hn, hread, hparse⟩, c, hc, hchunk.symm, hvector.symm⟩
    · rintro ⟨name, source, file, hs, c, hc, rfl, rfl⟩
      obtain ⟨hm, hhash⟩ := hknown hs
      obtain ⟨-, -, -, -, hparse⟩ := hs
      obtain ⟨r, hrs, hid, hch⟩ := (h.faithful.agree hfree hm hparse hhash).covered c hc
      have hrecord := (Store.mem_recordsFor.mp hrs).1
      obtain ⟨hchunk, hvector⟩ := h.faithful.unlabelled_eq hmet hfree hrecord
        (isChunk_of_mem hmet hm hparse hc) hid hch
      exact ⟨r, hrecord, hchunk, hvector⟩

/-- A reconciliation without errors. -/
theorem Tracks.reconciled {report : IndexReport} (h : Tracks f disks ix) (hc : Computes e f) (hr : ix.Rooted)
    (hu : ∀ d' ∈ disks, d'.Unlinked ix.root.parts) (hd : d ∈ disks) (hfree : CollisionFree (Met disks ix.root))
    (hrun : (ix.indexWorkspace e d).result = .ok report) (herr : report.errors = []) :
    (ix.indexWorkspace e d).index.root = ix.root ∧ Tracks f disks (ix.indexWorkspace e d).index ∧
    Mirrors Chunk.unlabelled f d (ix.indexWorkspace e d).index := by
  have hlisted : ∀ p ∈ sources d ix, ∃ name, Listed disks d ix p name := by
    intro p hp
    obtain ⟨name, hl, -⟩ := hr.listed hu hd hp
    exact ⟨name, hl⟩
  obtain ⟨hroot, htracks⟩ := h.indexWorkspace hc hd (hr.sources_own hu hd)
  obtain ⟨hcurrent, hnames⟩ := indexWorkspace_ok h hc hd hlisted hrun herr
  refine ⟨hroot, htracks, ?_⟩
  refine htracks.mirrors (hr.congr hroot) (hroot.symm ▸ hu) hd (hroot.symm ▸ hfree) ?_ ?_
  · intro p hp name hn
    rw [sources_congr hroot] at hp
    rw [relative_congr hroot] at hn
    exact hcurrent p hp name hn
  · intro name hn
    obtain ⟨p, hp, hn⟩ := hnames name hn
    rw [sources_congr hroot]
    exact ⟨p, hp, (relative_congr hroot d p).trans hn⟩

/-- Where a chunk with one id and one text has one kind and name, records are the chunks themselves. -/
theorem Mirrors.exact {met : Text → Text → Prop} (h : Mirrors Chunk.unlabelled f d ix) (hmet : Unified met)
    (hdrawn : ∀ r ∈ ix.store.records, IsChunk met r.chunk)
    (hsource : ∀ name source file, IsSource d ix name source file → met name source)
    (hlabel : ∀ c c', IsChunk met c → IsChunk met c' → c.id = c'.id → c.text = c'.text → c = c') :
    Mirrors id f d ix := by
  have hsame : ∀ {c c'}, IsChunk met c → IsChunk met c' → c.unlabelled = c'.unlabelled → c = c' :=
    fun hc hc' he => hlabel _ _ hc hc' (congrArg (·.id) he) (congrArg (·.text) he)
  have hchunk : ∀ {name source file c}, IsSource d ix name source file → c ∈ chunks name source file →
      IsChunk met c := by
    intro name source file c hs hc
    have hm := hsource name source file hs
    obtain ⟨-, -, -, -, hp⟩ := hs
    exact isChunk_of_mem hmet hm hp hc
  refine ⟨h.complete, h.hashes, ?_, h.distinct⟩
  intro c v
  constructor
  · rintro ⟨r, hr, rfl, rfl⟩
    obtain ⟨name, source, file, hs, c, hc, he, hv⟩ := (h.records r.chunk.unlabelled r.vector).mp ⟨r, hr, rfl, rfl⟩
    exact ⟨name, source, file, hs, c, hc, hsame (hchunk hs hc) (hdrawn r hr) he, hv⟩
  · rintro ⟨name, source, file, hs, c, hc, rfl, rfl⟩
    obtain ⟨r, hr, he, hv⟩ := (h.records c.unlabelled (f c.text)).mpr ⟨name, source, file, hs, c, hc, rfl, rfl⟩
    exact ⟨r, hr, hsame (hdrawn r hr) (hchunk hs hc) he, hv⟩

/-- After any calls on any disks, a reconciliation without errors leaves the digests of the source files and
the records of their chunks. What a record says of kind and name a version of its file said once, of a chunk
with the same id and text; where no version says otherwise of them, the record is the chunk itself. -/
theorem mirrors_but_labels {report : IndexReport} (h : Regular f e ix visits d)
    (hrun : ((ix.after e visits).indexWorkspace e d).result = .ok report) (herr : report.errors = []) :
    Mirrors Chunk.unlabelled f d ((ix.after e visits).indexWorkspace e d).index ∧
    (∀ r ∈ ((ix.after e visits).indexWorkspace e d).index.store.records,
      IsChunk (Met (disksOf visits d) ix.root) r.chunk) ∧
    ((∀ c c', IsChunk (Met (disksOf visits d) ix.root) c → IsChunk (Met (disksOf visits d) ix.root) c' →
      c.id = c'.id → c.text = c'.text → c = c') →
      Mirrors id f d ((ix.after e visits).indexWorkspace e d).index) := by
  have hd := mem_disksOf visits d
  obtain ⟨hroot, htracks⟩ := h.tracks
  obtain ⟨hroot₁, htracks₁, hmirrors⟩ := htracks.reconciled h.computes (h.rooted.congr hroot)
    (hroot.symm ▸ h.unlinked) hd (hroot.symm ▸ h.collisionFree) hrun herr
  have hsame := hroot₁.trans hroot
  have hdrawn := fun r hr => (htracks₁.faithful.drawn r hr).1
  have hsource := (h.rooted.congr hsame).met_of_isSource (hsame.symm ▸ h.unlinked) hd
  rw [hsame] at hdrawn hsource
  exact ⟨hmirrors, hdrawn, hmirrors.exact (met_unified _ _) hdrawn hsource⟩

end

attribute [local instance] Host.usual

def oneModule (source : Text) : Disk :=
  ⟨[(["w"], .directory), (["w", "a.py"], .file (Utf8.encodeAny source))]⟩

def newIndex : SemanticIndex := { root := ⟨"/", ["w"]⟩, file := ⟨"/", ["s"]⟩ }

def blank : Embedder := fun _ texts => .ok (texts.map fun _ => [])

theorem blank_answers : Answers blank fun _ => [] := fun _ _ => rfl

def classText (name : Text) : Text := "class " ++ name ++ ":\n def f():0"

def methodText : Text := " def f():0"

def classNames : List Text := ["A", "B"]

def classTexts : List Text := [classText "A", classText "B", methodText]

theorem mem_classNames : ("A" : Text) ∈ classNames ∧ ("B" : Text) ∈ classNames := by decide

theorem forall_classNames {P : Text → Prop} (ha : P "A") (hb : P "B") : ∀ name ∈ classNames, P name := by
  intro name hname
  rcases List.mem_cons.mp hname with rfl | hname
  · exact ha
  · exact List.mem_singleton.mp hname ▸ hb

theorem save_oneModule (s : Store) : (s.save (oneModule (classText "B")) ⟨"/", ["s"]⟩).2 = .ok () := by
  have hdirectories : (oneModule (classText "B")).ensureDirectories ⟨"/", []⟩ =
      (oneModule (classText "B"), .ok ()) := by
    cbv
  have htemporary : Store.temporaryPath (oneModule (classText "B")) ⟨"/", []⟩ = ⟨"/", [".chunks-0.tmp"]⟩ := by
    cbv
  have hopen : (oneModule (classText "B")).openForWriting ⟨"/", [".chunks-0.tmp"]⟩ =
      .ok ([".chunks-0.tmp"], (oneModule (classText "B")).put [".chunks-0.tmp"] (.file [])) := by
    cbv
  exact (s.save_ok (P := fun _ => True) hdirectories htemporary hopen fun bytes => ⟨_, rfl, trivial⟩).1

/-- Either text is a class with one method. -/
theorem parse_classText : ∀ name ∈ classNames, ∃ file, parse .loop (classText name) = .ok file ∧
    definitions file = [⟨.classDef, name, 1, 2⟩, ⟨.method, name ++ ".f", 2, 2⟩] := by
  have hparse : ∀ name ∈ classNames,
      (parse .loop (classText name)).toOption.map (·.flatMap Stmt.definitions) =
        some [⟨.classDef, name, 1, 2⟩, ⟨.method, name ++ ".f", 2, 2⟩] := by
    decide +kernel
  exact fun name hname => parse_defining (hparse name hname) (by simp)

def classChunks (path name : Text) : List Chunk :=
  [⟨chunkId path 1, path, "class", name, classText name, 1, 2, hashText (classText name)⟩,
    ⟨chunkId path 2, path, "method", name ++ ".f", methodText, 2, 2, hashText methodText⟩]

theorem chunks_classText {name : Text} {file : List Stmt} (hname : name ∈ classNames)
    (h : definitions file = [⟨.classDef, name, 1, 2⟩, ⟨.method, name ++ ".f", 2, 2⟩]) (path : Text) :
    chunks path (classText name) file = classChunks path name := by
  have htexts : ∀ name ∈ classNames,
      Text.unlines (((Text.lines (classText name)).take 2).drop (1 - 1)) = classText name ∧
      Text.unlines (((Text.lines (classText name)).take 2).drop (2 - 1)) = methodText :=
    forall_classNames ⟨by cbv, by cbv⟩ ⟨by cbv, by cbv⟩
  obtain ⟨hclass, hmethod⟩ := htexts name hname
  have hne : chunkId path 2 ≠ chunkId path 1 := fun he => absurd (chunkId_inj he).2 (by decide)
  unfold chunks
  rw [h]
  simp only [List.map_cons, List.map_nil, Definition.chunk, hclass, hmethod, firstOfEach, List.filter_nil]
  rw [List.filter_cons_of_pos (by simpa using hne)]
  rfl

theorem classText_hashes {t t' : Text} (ht : t ∈ classTexts)
    (ht' : t' ∈ classTexts) (h : hashText t = hashText t') :
    t = t' := by
  have hn : (classTexts.map hashText).Nodup := by
    decide +kernel
  exact List.inj_on_of_nodup_map hn ht ht' h

theorem oneModule_linkless (source : Text) : (oneModule source).Linkless :=
  linkless_of_entries (by simp [oneModule, isLink])

/-- No link stands in a project with one module. -/
theorem oneModule_unlinked (source : Text) : (oneModule source).Unlinked ["w"] := by
  refine ⟨?_, ?_, fun x _ => oneModule_linkless source x⟩
  · intro entry he
    rcases List.mem_cons.mp he with rfl | he
    · rfl
    · obtain rfl := List.mem_singleton.mp he
      rfl
  · have hw : IsName "w" := ⟨⟨by decide, by decide, by decide⟩, by decide⟩
    have ha : IsName "a.py" := ⟨⟨by decide, by decide, by decide⟩, by decide⟩
    intro entry he name hname
    rcases List.mem_cons.mp he with rfl | he
    · exact List.mem_singleton.mp hname ▸ hw
    · obtain rfl := List.mem_singleton.mp he
      rcases List.mem_cons.mp hname with rfl | hname
      · exact hw
      · exact List.mem_singleton.mp hname ▸ ha

/-- Whatever is read from the workspace is its one module. -/
theorem classText_of_readText {name : Text} (hname : name ∈ classNames) {p : Path} {t : Text}
    (h : (oneModule (classText name)).readText p = .ok t) : t = classText name := by
  have hdecode : ∀ name ∈ classNames,
      Utf8.decode (Utf8.encodeAny (classText name)) = .ok (classText name) ∧
      Text.normalizeNewlines (classText name) = classText name :=
    forall_classNames ⟨by cbv, by cbv⟩ ⟨by cbv, by cbv⟩
  obtain ⟨hu, ht⟩ := hdecode name hname
  obtain ⟨x, bytes, decoded, hx, hb, rfl⟩ := file_of_readText h
  have hne : x ≠ [] := by
    rintro rfl
    cases hx
  have hm := mem_of_lookup? hx hne
  simp only [oneModule, List.mem_cons, Prod.mk.injEq, reduceCtorEq, and_false, Entry.file.injEq,
    List.not_mem_nil, or_false, false_or] at hm
  rw [hm.2, hu] at hb
  cases hb
  exact ht

def renamedVisits : List Visit := [⟨oneModule (classText "A"), .indexFile "a.py" false⟩]

def renamedDisk : Disk := oneModule (classText "B")

theorem renamed_disks : ∀ d' ∈ disksOf renamedVisits renamedDisk,
    ∃ name ∈ classNames, d' = oneModule (classText name) := by
  intro d' hd'
  rcases List.mem_cons.mp hd' with rfl | hd'
  · exact ⟨"A", mem_classNames.1, rfl⟩
  · exact ⟨"B", mem_classNames.2, List.mem_singleton.mp hd'⟩

/-- No text was met but the two of the class. -/
theorem renamed_occurs {t : Text} (h : Occurs (Met (disksOf renamedVisits renamedDisk) newIndex.root) t) :
    t ∈ classTexts := by
  have hmet : ∀ {name source}, Met (disksOf renamedVisits renamedDisk) newIndex.root name source →
      ∃ className ∈ classNames, source = classText className := by
    rintro name source ⟨d, hd, hr⟩
    obtain ⟨className, hclass, rfl⟩ := renamed_disks d hd
    exact ⟨className, hclass, classText_of_readText hclass hr⟩
  have htext : ∀ className ∈ classNames, classText className ∈ classTexts :=
    forall_classNames List.mem_cons_self (List.mem_cons_of_mem _ List.mem_cons_self)
  cases h with
  | file hm =>
    obtain ⟨className, hclass, rfl⟩ := hmet hm
    exact htext className hclass
  | @chunk c hc =>
    obtain ⟨source, file, hm, hp, hmem⟩ := hc
    obtain ⟨className, hclass, rfl⟩ := hmet hm
    obtain ⟨file', hp', hdefinitions⟩ := parse_classText className hclass
    rw [hp] at hp'
    cases hp'
    rw [chunks_classText hclass hdefinitions] at hmem
    rcases List.mem_cons.mp hmem with he | he
    · rw [congrArg Chunk.text he]
      exact htext className hclass
    · rw [congrArg Chunk.text (List.mem_singleton.mp he)]
      simp [classTexts]

/-- Nothing stood in the way while the class was renamed. -/
theorem renamed_regular : Regular (fun _ => []) blank newIndex renamedVisits renamedDisk where
  computes := blank_answers.computes
  empty := rfl
  resolved := ⟨renamedDisk, "/w", by cbv⟩
  unlinked := by
    intro d' hd'
    obtain ⟨name, -, rfl⟩ := renamed_disks d' hd'
    exact oneModule_unlinked _
  steady := by
    intro v hv path hpath
    refine steady_of_linkless ?_ _
    intro d' hd'
    obtain ⟨name, -, rfl⟩ := renamed_disks d' hd'
    exact oneModule_linkless _
  collisionFree := fun t t' ht ht' => classText_hashes (renamed_occurs ht) (renamed_occurs ht')

theorem oneModule_sources : ∀ name ∈ classNames,
    sources (oneModule (classText name)) newIndex = [⟨"/", ["w", "a.py"]⟩] :=
  forall_classNames (by cbv) (by cbv)

/-- The module is there with one of its texts. -/
theorem oneModule_stands {name : Text} {file : List Stmt} (hname : name ∈ classNames)
    (hp : parse .loop (classText name) = .ok file) {p : Path} (h : newIndex.root.join p = ⟨"/", ["w", "a.py"]⟩) :
    Version.Stands (oneModule (classText name)) newIndex p ⟨"a.py", classText name, file⟩ := by
  have hnamed : ∀ name ∈ classNames,
      newIndex.relative (oneModule (classText name)) ⟨"/", ["w", "a.py"]⟩ = .ok "a.py" :=
    forall_classNames (by cbv) (by cbv)
  have hread : ∀ name ∈ classNames,
      (oneModule (classText name)).readText ⟨"/", ["w", "a.py"]⟩ = .ok (classText name) :=
    forall_classNames (by cbv) (by cbv)
  refine ⟨?_, ?_, hp⟩
  · have hsame := hnamed name hname
    unfold relative at hsame ⊢
    rw [h]
    exact hsame
  · refine readSource_of_readText ?_
    have hjoin : newIndex.root.join (Path.ofText "a.py") = ⟨"/", ["w", "a.py"]⟩ := by decide
    dsimp only
    rw [hjoin]
    exact hread name hname

def methodRecord : StoredChunk :=
  ⟨⟨chunkId "a.py" 2, "a.py", "method", "A.f", methodText, 2, 2, hashText methodText⟩, []⟩

theorem classChunks_nodup (name : Text) : ((classChunks "a.py" name).map (·.id)).Nodup := by
  change [chunkId "a.py" 1, chunkId "a.py" 2].Nodup
  decide

theorem renamed_before :
    (newIndex.after blank renamedVisits).file = newIndex.file ∧
    (newIndex.after blank renamedVisits).store =
      replaced (fun _ => []) {} "a.py" (classText "A") (classChunks "a.py" "A") := by
  obtain ⟨file, hp, hdefinitions⟩ := parse_classText "A" mem_classNames.1
  obtain ⟨ix, outcome, hrun, -, -, -, hfile, hstore⟩ :=
    indexFile_answers blank_answers (oneModule_stands mem_classNames.1 hp (p := Path.ofText "a.py") (by decide))
  have hafter : newIndex.after blank renamedVisits = ix := congrArg IndexStep.index hrun
  rw [hafter, hstore, ← chunks_classText mem_classNames.1 hdefinitions]
  refine ⟨hfile, ?_⟩
  change brought (fun _ => []) {} "a.py" (classText "A") file = _
  exact if_neg (by simp [Store.hash?, Table.get?])

/-- The method stays where it is, so its record is kept. -/
theorem renamed_run :
    (∃ report, ((newIndex.after blank renamedVisits).indexWorkspace blank renamedDisk).result = .ok report ∧
      report.errors = []) ∧
    methodRecord ∈ ((newIndex.after blank renamedVisits).indexWorkspace blank renamedDisk).index.store.records := by
  obtain ⟨file, hp, hdefinitions⟩ := parse_classText "B" mem_classNames.2
  have hrooted := renamed_regular.rooted
  obtain ⟨hroot, htracks⟩ := renamed_regular.tracks
  obtain ⟨hfile, hbefore⟩ := renamed_before
  generalize newIndex.after blank renamedVisits = ix at hroot htracks hbefore hfile ⊢
  have hsources : sources renamedDisk ix = [⟨"/", ["w", "a.py"]⟩] := by
    rw [sources_congr hroot]
    exact oneModule_sources "B" mem_classNames.2
  have hstands := (oneModule_stands mem_classNames.2 hp (p := ⟨"/", ["w", "a.py"]⟩) rfl).congr hroot
  have hown := (hrooted.congr hroot).sources_own (hroot.symm ▸ renamed_regular.unlinked)
    (mem_disksOf _ _)
  have hall : List.Forall₂ (fun p (v : Version) => v.Stands renamedDisk ix p)
      (sources renamedDisk ix) [⟨"a.py", classText "B", file⟩] := by
    rw [hsources]
    exact .cons hstands .nil
  obtain ⟨hreport, hstore⟩ := indexWorkspace_answers blank_answers htracks (mem_disksOf _ _) hown hall
    (hfile ▸ save_oneModule _)
  refine ⟨hreport, ?_⟩
  rw [hstore]
  have hold : methodRecord ∈ ix.store.records := by
    rw [hbefore]
    exact mem_replaced_of_fresh _ _ (classChunks_nodup "A") (List.mem_cons_of_mem _ List.mem_cons_self)
      (by simp [Store.recordsFor])
  refine mem_reconciled htracks.faithful.distinct ?_ List.mem_cons_self
  change methodRecord ∈ (brought (fun _ => []) ix.store "a.py" (classText "B") file).records
  unfold brought
  split
  · exact hold
  · rw [chunks_classText mem_classNames.2 hdefinitions]
    exact mem_replaced_of_kept _ _ (classChunks_nodup "B") (Store.mem_recordsFor.mpr ⟨hold, rfl⟩)
      (List.mem_cons_of_mem _ List.mem_cons_self) rfl rfl

/-- The class is another one, and the record of the method still names the old one. -/
theorem renamed_class_not_mirrored :
    Regular (fun _ => []) blank newIndex renamedVisits renamedDisk ∧
    (∃ report, ((newIndex.after blank renamedVisits).indexWorkspace blank renamedDisk).result = .ok report ∧
      report.errors = []) ∧
    ¬ Mirrors id (fun _ => []) renamedDisk
      ((newIndex.after blank renamedVisits).indexWorkspace blank renamedDisk).index := by
  obtain ⟨hreport, hrecord⟩ := renamed_run
  refine ⟨renamed_regular, hreport, fun h => ?_⟩
  obtain ⟨name, source, file, ⟨p, -, -, hread, hp⟩, c, hc, he, -⟩ :=
    (h.records methodRecord.chunk []).mp ⟨methodRecord, hrecord, rfl, rfl⟩
  obtain rfl := classText_of_readText mem_classNames.2 hread
  obtain ⟨file', hp', hdefinitions⟩ := parse_classText "B" mem_classNames.2
  rw [hp] at hp'
  cases hp'
  rw [chunks_classText mem_classNames.2 hdefinitions] at hc
  have hnames : c.name ∈ ([("B" : Text), "B.f"] : List Text) := by
    rcases List.mem_cons.mp hc with rfl | hc
    · exact List.mem_cons_self
    · rw [List.mem_singleton.mp hc]
      exact List.mem_cons_of_mem _ List.mem_cons_self
  have hname : c.name = ("A.f" : Text) := congrArg Chunk.name he
  rw [hname] at hnames
  exact absurd hnames (by decide)

theorem renamed_class_mirrored_but_labels :
    ∃ report, ((newIndex.after blank renamedVisits).indexWorkspace blank renamedDisk).result = .ok report ∧
      report.errors = [] ∧ Regular (fun _ => []) blank newIndex renamedVisits renamedDisk ∧
      Mirrors Chunk.unlabelled (fun _ => []) renamedDisk
        ((newIndex.after blank renamedVisits).indexWorkspace blank renamedDisk).index := by
  obtain ⟨⟨report, hrun, herr⟩, -⟩ := renamed_run
  exact ⟨report, hrun, herr, renamed_regular, (mirrors_but_labels renamed_regular hrun herr).1⟩

end CodeAgent.SemanticIndex
