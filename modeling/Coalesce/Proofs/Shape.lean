import Coalesce.Proofs.Looks
import Coalesce.Proofs.Names
import Coalesce.Text.Bytes

/-!
# Shapes of a project

A project keeps of its last look at the file system a hash of the bytes of its *shape*: the content
of the manifest, and behind it the path of every source with a zero at the end. It reports no change
if the hash is what it was. Say that the hash separates the bytes of two findings
(`Hash.Separates`), as it does unless they are a collision. Then it depends on the bytes what the
project reports. The zeros keep the paths apart, since no path has one in it, but nothing stands
between the manifest and the first path. So there are different findings with the same bytes: the
front of the list of the one may stand at the end of the manifest of the other
(`Findings.Realigns`), in a comment for instance. If the list was cut within a path then what is
left of this path is a source of the other, as `/p/a.ts` is left of `/p/p/a.ts`.

These are all there are (`Findings.bytes_eq_iff`).
-/

namespace Coalesce

/-! ## The bytes of paths -/

namespace FilePath

theorem bytes_inj {p q : FilePath} (h : p.bytes = q.bytes) : p = q := by
  rw [bytes, bytes, ← Text.encode_toList, ← Text.encode_toList] at h
  exact congrArg FilePath.mk (Text.encode_injective h)

theorem NulFree.zero_not_mem {p : FilePath} (h : p.NulFree) : 0 ∉ p.bytes := by
  intro hmem
  rw [bytes, ← Text.encode_toList, Text.encode, List.mem_flatMap] at hmem
  obtain ⟨c, hc, hzero⟩ := hmem
  obtain rfl : c = '\x00' := Text.eq_of_mem_utf8EncodeChar (by decide) hzero
  exact h hc

/-- The bytes of a list of paths, each with a zero behind it. -/
def listing (ps : List FilePath) : List UInt8 := ps.flatMap fun p ↦ p.bytes ++ [0]

theorem listing_cons (p : FilePath) (ps : List FilePath) :
    listing (p :: ps) = p.bytes ++ 0 :: listing ps := by
  rw [listing, List.flatMap_cons, List.append_assoc]
  rfl

end FilePath

open FilePath (listing listing_cons)

theorem append_zero_inj {us vs ss ts : List UInt8} (hu : 0 ∉ us) (hv : 0 ∉ vs)
    (h : us ++ 0 :: ss = vs ++ 0 :: ts) : us = vs ∧ ss = ts := by
  induction us generalizing vs with
  | nil =>
    cases vs with
    | nil => exact ⟨rfl, (List.cons.inj h).2⟩
    | cons v vs =>
      obtain ⟨rfl, -⟩ := List.cons.inj h
      exact absurd List.mem_cons_self hv
  | cons u us ih =>
    cases vs with
    | nil =>
      obtain ⟨rfl, -⟩ := List.cons.inj h
      exact absurd List.mem_cons_self hu
    | cons v vs =>
      obtain ⟨rfl, hrest⟩ := List.cons.inj h
      obtain ⟨rfl, rfl⟩ :=
        ih (fun hmem ↦ hu (List.mem_cons_of_mem _ hmem))
          (fun hmem ↦ hv (List.mem_cons_of_mem _ hmem)) hrest
      exact ⟨rfl, rfl⟩

theorem listing_inj {ps qs : List FilePath} (hps : ∀ p ∈ ps, p.NulFree) (hqs : ∀ q ∈ qs, q.NulFree)
    (h : listing ps = listing qs) : ps = qs := by
  induction ps generalizing qs with
  | nil =>
    cases qs with
    | nil => rfl
    | cons q qs =>
      rw [listing_cons] at h
      simp [listing] at h
  | cons p ps ih =>
    cases qs with
    | nil =>
      rw [listing_cons] at h
      simp [listing] at h
    | cons q qs =>
      rw [listing_cons, listing_cons] at h
      obtain ⟨hbytes, hrest⟩ := append_zero_inj (hps p List.mem_cons_self).zero_not_mem
        (hqs q List.mem_cons_self).zero_not_mem h
      rw [FilePath.bytes_inj hbytes,
        ih (List.forall_mem_cons.1 hps).2 (List.forall_mem_cons.1 hqs).2 hrest]

/-- How a list of paths can go on as another one does: it does so behind some of its paths and some
bytes of the next one. -/
theorem exists_cut {ps qs : List FilePath} {q : FilePath} {xs : List UInt8}
    (hps : ∀ p ∈ ps, p.NulFree) (hqs : ∀ p ∈ q :: qs, p.NulFree)
    (h : listing ps = xs ++ listing (q :: qs)) :
    ∃ before p front, ps = before ++ p :: qs ∧ p.bytes = front ++ q.bytes ∧
      xs = listing before ++ front := by
  have hq := (hqs q List.mem_cons_self).zero_not_mem
  obtain ⟨-, hqs'⟩ := List.forall_mem_cons.1 hqs
  induction ps generalizing xs with
  | nil =>
    rw [listing_cons] at h
    simp [listing] at h
  | cons p ps ih =>
    obtain ⟨hp, hps'⟩ := List.forall_mem_cons.1 hps
    rw [listing_cons, listing_cons] at h
    -- The cut is behind the first path or within it.
    rcases List.append_eq_append_iff.1 h with ⟨ys, hxs, hrest⟩ | ⟨back, hbytes, hrest⟩
    · cases ys with
      | nil =>
        have hempty : (0 : UInt8) ∉ [] := List.not_mem_nil
        obtain ⟨hback, htail⟩ := append_zero_inj hempty hq hrest
        refine ⟨[], p, p.bytes, ?_, ?_, ?_⟩
        · rw [listing_inj hps' hqs' htail, List.nil_append]
        · rw [← hback, List.append_nil]
        · rw [hxs, List.append_nil]
          rfl
      | cons y ys =>
        obtain ⟨rfl, -⟩ := List.cons.inj hrest
        have htail : listing ps = ys ++ listing (q :: qs) := by
          rw [listing_cons]
          exact (List.cons.inj hrest).2
        obtain ⟨before, p', front, rfl, hcut, rfl⟩ := ih hps' htail
        refine ⟨p :: before, p', front, rfl, hcut, ?_⟩
        rw [hxs, listing_cons, List.append_assoc, List.cons_append]
    · have hback : (0 : UInt8) ∉ back := fun hmem ↦
        hp.zero_not_mem (hbytes ▸ List.mem_append_right _ hmem)
      obtain ⟨hq', htail⟩ := append_zero_inj hq hback hrest
      refine ⟨[], p, xs, ?_, ?_, rfl⟩
      · rw [← listing_inj hqs' hps' htail, List.nil_append]
      · rw [hbytes, hq']

/-! ## Findings -/

/-- What a project finds when it looks, as far as its shape goes: the content of its manifest and
its sources. -/
structure Findings where
  content : List UInt8
  sources : List FilePath
deriving DecidableEq

namespace Findings

/-- The bytes that a shape is told by. -/
def bytes (f : Findings) : List UInt8 := f.content ++ listing f.sources

/-- What one project lists stands at the end of the manifest of the other, up to a cut: some paths,
and the bytes at the front of another one. The rest of that path is the first source of the other
project, and behind it both list the same; or else there is no rest, and the other project has no
source. -/
inductive Realigns (a b : Findings) : Prop
  | within (before : List FilePath) (p q : FilePath) (behind : List FilePath) (front : List UInt8)
      (sources : a.sources = before ++ p :: behind) (others : b.sources = q :: behind)
      (cut : p.bytes = front ++ q.bytes)
      (content : b.content = a.content ++ (listing before ++ front))
      (moved : listing before ++ front ≠ [])
  | whole (content : b.content = a.content ++ listing a.sources) (others : b.sources = [])
      (moved : listing a.sources ≠ [])

variable {a b : Findings}

theorem Realigns.bytes_eq (h : a.Realigns b) : a.bytes = b.bytes := by
  cases h with
  | within before p q behind front sources others cut content moved =>
    have hlisting : listing a.sources = listing before ++ (p.bytes ++ 0 :: listing behind) := by
      rw [sources, listing, List.flatMap_append, ← listing, ← listing, listing_cons]
    rw [bytes, bytes, hlisting, cut, others, content, listing_cons]
    simp only [List.append_assoc]
  | whole content others moved =>
    rw [bytes, bytes, content, others]
    exact (List.append_nil _).symm

theorem Realigns.content_ne (h : a.Realigns b) : a.content ≠ b.content := by
  cases h with
  | within before p q behind front sources others cut content moved =>
    rw [content]
    simpa using moved
  | whole content others moved =>
    rw [content]
    simpa using moved

theorem eq_or_realigns {xs : List UInt8} (ha : ∀ p ∈ a.sources, p.NulFree)
    (hb : ∀ p ∈ b.sources, p.NulFree) (hcontent : b.content = a.content ++ xs)
    (hlisting : listing a.sources = xs ++ listing b.sources) : a = b ∨ a.Realigns b := by
  by_cases hmoved : xs = []
  · subst hmoved
    have hsources := listing_inj ha hb hlisting
    rw [List.append_nil] at hcontent
    obtain ⟨content, sources⟩ := a
    obtain ⟨content', sources'⟩ := b
    exact Or.inl (by rw [mk.injEq]; exact ⟨hcontent.symm, hsources⟩)
  · right
    cases hsources : b.sources with
    | nil =>
      rw [hsources] at hlisting
      have hxs : listing a.sources = xs := hlisting.trans (List.append_nil xs)
      exact .whole (hxs ▸ hcontent) hsources (hxs ▸ hmoved)
    | cons q behind =>
      rw [hsources] at hlisting hb
      obtain ⟨before, p, front, hsplit, hcut, rfl⟩ := exists_cut ha hb hlisting
      exact .within before p q behind front hsplit hsources hcut hcontent hmoved

/-- **When findings have the same bytes**: they are the same, or one realigns with the other. -/
theorem bytes_eq_iff (ha : ∀ p ∈ a.sources, p.NulFree) (hb : ∀ p ∈ b.sources, p.NulFree) :
    a.bytes = b.bytes ↔ a = b ∨ a.Realigns b ∨ b.Realigns a := by
  constructor
  · intro h
    rcases List.append_eq_append_iff.1 h with ⟨xs, hcontent, hlisting⟩ | ⟨xs, hcontent, hlisting⟩
    · exact (eq_or_realigns ha hb hcontent hlisting).imp_right Or.inl
    · exact (eq_or_realigns hb ha hcontent hlisting).imp Eq.symm Or.inr
  · rintro (rfl | h | h)
    · rfl
    · exact h.bytes_eq
    · exact h.bytes_eq.symm

end Findings

/-! ## Polls -/

/-- Two lists of bytes are no collision of a hash. -/
def Hash.Separates (hash : Hash) (xs ys : List UInt8) : Prop := hash xs = hash ys → xs = ys

namespace ManifestProject

variable {p : ManifestProject} {fs : FileSystem}

/-- What a project finds in a file system. -/
def findings (p : ManifestProject) (fs : FileSystem) : Findings where
  content := ((fs.read p.manifest).toOption.getD .empty).data.toList
  sources := (p.look fs).1.configuration.files

theorem fingerprint_look (p : ManifestProject) (fs : FileSystem) :
    (p.look fs).1.fingerprint = p.hash (p.findings fs).bytes := rfl

theorem nulFree_of_mem_findings (hfs : fs.NulFree) :
    ∀ path ∈ (p.findings fs).sources, path.NulFree :=
  fun _ hpath ↦ SourceRules.nulFree_of_mem_select hfs hpath

end ManifestProject

/-- **When the shape stays the same.** Take any life of a project that was opened, and another look
at the file system, and say that the bytes of what this look and the last one find are no collision
of the hash. The look tells the shape from that of the look before just if the manifest or the
sources differ and the two findings do not realign. So "unchanged" can be trusted just if they do
not realign. This is what a poll reports at which the project looks, unless it is the first one. -/
theorem unchanged_same_shape_iff {path : FilePath} {opened : FileSystem} {hash : Hash}
    {home : ManifestProject} {line : Trace}
    (hopened : ManifestProject.ofManifest opened path hash = .ok (home, line))
    (visits : List ManifestProject.Visit) (fs : FileSystem) :
    let p := home.live visits
    let last := ManifestProject.lastSeen opened home visits
    let unchanged := (p.look fs).1.fingerprint = p.fingerprint
    last.NulFree → fs.NulFree → hash.Separates (p.findings last).bytes (p.findings fs).bytes →
      (unchanged ↔ p.findings last = p.findings fs ∨
        (p.findings last).Realigns (p.findings fs) ∨ (p.findings fs).Realigns (p.findings last)) ∧
      ((unchanged → p.findings last = p.findings fs) ↔
        ¬(p.findings last).Realigns (p.findings fs) ∧
          ¬(p.findings fs).Realigns (p.findings last)) ∧
      (p.looks = true → ((p.poll fs).1 = .unchanged ↔ p.wasAsked = true ∧ unchanged)) := by
  intro p last unchanged hlast hfs hseparates
  have hshows : (p.look last).1 = p := (ManifestProject.of_ofManifest hopened).1.live visits
  have hhash : p.hash = hash := by
    obtain ⟨watcher?, hlook⟩ := ManifestProject.exists_look_of_ofManifest hopened
    cases hlook
    exact ManifestProject.hash_live _ visits
  have hiff : unchanged ↔ p.findings last = p.findings fs ∨
      (p.findings last).Realigns (p.findings fs) ∨ (p.findings fs).Realigns (p.findings last) := by
    have hfingerprint : p.fingerprint = hash (p.findings last).bytes := by
      rw [← hhash, ← ManifestProject.fingerprint_look, hshows]
    have hbytes : unchanged ↔ (p.findings last).bytes = (p.findings fs).bytes := by
      have hlook : (p.look fs).1.fingerprint = hash (p.findings fs).bytes :=
        congrArg (· (p.findings fs).bytes) hhash
      rw [show unchanged = (hash (p.findings fs).bytes = hash (p.findings last).bytes) by
        rw [← hlook, ← hfingerprint]]
      exact ⟨fun h ↦ hseparates h.symm, fun h ↦ congrArg hash h.symm⟩
    exact hbytes.trans (Findings.bytes_eq_iff (ManifestProject.nulFree_of_mem_findings hlast)
      (ManifestProject.nulFree_of_mem_findings hfs))
  refine ⟨hiff, ?_, fun hlooks ↦ ?_⟩
  · rw [hiff]
    constructor
    · intro htrust
      refine ⟨fun h ↦ h.content_ne ?_, fun h ↦ h.content_ne ?_⟩
      · rw [htrust (Or.inr (Or.inl h))]
      · rw [htrust (Or.inr (Or.inr h))]
    · rintro ⟨hnot, hnot'⟩ (heq | h | h)
      · exact heq
      · exact absurd h hnot
      · exact absurd h hnot'
  · obtain ⟨lines, hpoll, -⟩ := ManifestProject.poll_of_looks fs hlooks
    rw [hpoll]
    dsimp only
    split
    next h => exact iff_of_true rfl h
    next h => exact iff_of_false (by simp) h

/-- A manifest that lists two files, one of them in a directory of the same name as its own, and
that ends within a comment. -/
def Sample.commented : String :=
  "[project]\nwatch = false\ninclude = []\nfiles = [\"a.ts\", \"p/a.ts\"]\n# "

/-- The file system in which the second of the two files exists, with some content. -/
def Sample.nested (content : String) : FileSystem :=
  disk commented [("p", .directory [("a.ts", .file content.toUTF8)])]

/-- A project that has looked at the second file keeps its shape when the content of the file
changes. -/
theorem unchanged_same_shape_edited :
    ∃ home line, ManifestProject.ofManifest (Sample.nested "1") Sample.manifest = .ok (home, line) ∧
      let p := home.live [.poll (Sample.nested "1")]
      p.findings (Sample.nested "1") = p.findings (Sample.nested "2") ∧
        (p.poll (Sample.nested "2")).1 = .unchanged := by
  have hopened := ManifestProject.ofManifest_of_not_watched (Sample.nested "1") Sample.manifest
    id (by decide +kernel)
  refine ⟨_, _, hopened, ?_⟩
  intro p
  obtain ⟨hsame, hlooks, hasked⟩ :
      p.findings (Sample.nested "1") = p.findings (Sample.nested "2") ∧ p.looks = true ∧
        p.wasAsked = true := by decide +kernel
  obtain ⟨hiff, -, hpoll⟩ := unchanged_same_shape_iff hopened [.poll (Sample.nested "1")]
    (Sample.nested "2") (by decide +kernel) (by decide +kernel) fun h ↦ h
  exact ⟨hsame, (hpoll hlooks).2 ⟨hasked, hiff.2 (Or.inl hsame)⟩⟩

/-- But it keeps its shape too when the first file comes for the second one and the comment grows by
what their paths differ in. -/
theorem unchanged_shape_realigned :
    ∃ home line, ManifestProject.ofManifest (Sample.nested "1") Sample.manifest = .ok (home, line) ∧
      let p := home.live [.poll (Sample.nested "1")]
      let fs := Sample.disk (Sample.commented ++ "/p") [("a.ts", .file "1".toUTF8)]
      p.looks = true ∧ (p.poll fs).1 = .unchanged ∧
        (p.findings (Sample.nested "1")).sources = [⟨"/p/p/a.ts"⟩] ∧
        (p.findings fs).sources = [⟨"/p/a.ts"⟩] ∧
        (p.findings (Sample.nested "1")).content ≠ (p.findings fs).content := by
  have hopened := ManifestProject.ofManifest_of_not_watched (Sample.nested "1") Sample.manifest
    id (by decide +kernel)
  exact ⟨_, _, hopened, by decide +kernel⟩

end Coalesce
