import CodeAgent.Disk.Volume
import CodeAgent.Proofs.Disk.Walk

namespace CodeAgent.Disk

variable {d d' d'' : Disk} {p : Path} {x : Place} {xs ys : List Place} {e : Entry}

/-- Outside some places only directories were added. No link was made, and a tree is still one. -/
structure Grows (xs : List Place) (d d' : Disk) : Prop where
  noLink : ∀ x target, d'.lookup? x = some (.link target) → d.lookup? x = some (.link target)
  tree : d.IsTree → d'.IsTree
  outside : ∀ x, x ∉ xs → d'.lookup? x = d.lookup? x ∨ d.lookup? x = none ∧ d'.lookup? x = some .directory

/-- Outside some places nothing was changed. -/
structure Touches (xs : List Place) (d d' : Disk) : Prop extends Grows xs d d' where
  same : ∀ x, x ∉ xs → d'.lookup? x = d.lookup? x

theorem Touches.refl (xs : List Place) (d : Disk) : Touches xs d d :=
  ⟨⟨fun _ _ h => h, fun h => h, fun _ _ => Or.inl rfl⟩, fun _ _ => rfl⟩

theorem Grows.mono (h : Grows xs d d') (hs : xs ⊆ ys) : Grows ys d d' :=
  ⟨h.noLink, h.tree, fun x hx => h.outside x fun hm => hx (hs hm)⟩

theorem Touches.mono (h : Touches xs d d') (hs : xs ⊆ ys) : Touches ys d d' :=
  ⟨h.toGrows.mono hs, fun x hx => h.same x fun hm => hx (hs hm)⟩

theorem Grows.trans (h : Grows xs d d') (h' : Grows xs d' d'') : Grows xs d d'' := by
  refine ⟨fun x target hl => h.noLink x target (h'.noLink x target hl), fun tree => h'.tree (h.tree tree), ?_⟩
  intro x hx
  rcases h'.outside x hx with he' | ⟨hn', hd'⟩
  · rw [he']
    exact h.outside x hx
  · rcases h.outside x hx with he | ⟨-, hd⟩
    · exact Or.inr ⟨he ▸ hn', hd'⟩
    · rw [hd] at hn'
      cases hn'

theorem Touches.trans (h : Touches xs d d') (h' : Touches xs d' d'') : Touches xs d d'' :=
  ⟨h.toGrows.trans h'.toGrows, fun x hx => (h'.same x hx).trans (h.same x hx)⟩

theorem Grows.plain (h : Grows xs d d') (hp : d.Plain x) : d'.Plain x :=
  ⟨hp.noDots, fun y hy target hl => hp.noLink y hy target (h.noLink y target hl)⟩

/-- Where a file can be put: not over a directory, and in one. -/
structure Writable (d : Disk) (x : Place) : Prop where
  parent : d.lookup? x.dropLast = some .directory
  free : d.lookup? x ≠ some .directory

theorem Writable.ne_root (h : d.Writable x) : x ≠ [] := by
  rintro rfl
  exact h.free rfl

theorem dropLast_ne_self (hx : x ≠ []) : x.dropLast ≠ x := by
  intro he
  have hlen := congrArg List.length he
  have hpos := List.length_pos_iff.mpr hx
  rw [List.length_dropLast] at hlen
  omega

theorem Writable.put (h : d.Writable x) (bytes : Bytes) : (d.put x (.file bytes)).Writable x := by
  refine ⟨?_, ?_⟩
  · rw [lookup?_put_of_ne d (dropLast_ne_self h.ne_root)]
    exact h.parent
  · rw [lookup?_put_self d h.ne_root]
    exact fun he => Entry.noConfusion (Option.some.inj he)

theorem Writable.put_touches (h : d.Writable x) (bytes : Bytes) :
    Touches [x] d (d.put x (.file bytes)) := by
  have hsame (y : Place) (hy : y ∉ [x]) : (d.put x (.file bytes)).lookup? y = d.lookup? y :=
    lookup?_put_of_ne d (by simpa using hy)
  refine ⟨⟨?_, ?_, fun y hy => Or.inl (hsame y hy)⟩, hsame⟩
  · intro y target hl
    by_cases hy : y = x
    · subst hy
      rw [lookup?_put_self d h.ne_root] at hl
      cases hl
    · rw [lookup?_put_of_ne d hy] at hl
      exact hl
  · exact fun tree => tree.put h.parent fun he => absurd he h.free

theorem openForWriting_ok {place : Place} (hp : d.Plain p.parts)
    (h : d.openForWriting p = .ok (place, d')) :
    place = p.parts ∧ d' = d.put p.parts (.file []) ∧ d.Writable p.parts := by
  unfold openForWriting at h
  split at h
  · cases h
  rename_i place' hl
  obtain ⟨rfl, hparent, -⟩ := locate_ok hp hl
  split at h
  · cases h
  · rename_i hfree
    cases h
    exact ⟨rfl, rfl, hparent, hfree⟩

theorem writeBytes_touches {bytes : Bytes} (hp : d.Plain p.parts) (h : d.writeBytes p bytes = .ok d') :
    Touches [p.parts] d d' := by
  unfold writeBytes at h
  split at h
  · cases h
  · rename_i ho
    obtain ⟨rfl, rfl, hw⟩ := openForWriting_ok hp ho
    cases h
    exact (hw.put_touches []).trans ((hw.put []).put_touches bytes)

theorem writeText_touches (hp : d.Plain p.parts) (t : Text) :
    Touches [p.parts] d (d.writeText p t).1 := by
  unfold writeText
  split
  · exact Touches.refl _ d
  · rename_i ho
    obtain ⟨rfl, rfl, hw⟩ := openForWriting_ok hp ho
    split
    · exact (hw.put_touches []).trans ((hw.put []).put_touches _)
    · exact hw.put_touches []

theorem writeText_ok {t : Text} (hp : d.Plain p.parts) (h : d.writeText p t = (d', .ok ())) :
    ∃ bytes, Utf8.encode t = .ok bytes ∧ d'.lookup? p.parts = some (.file bytes) := by
  unfold writeText at h
  split at h
  · simp at h
  · rename_i ho
    obtain ⟨rfl, rfl, hw⟩ := openForWriting_ok hp ho
    split at h
    · rename_i bytes he
      obtain ⟨rfl, -⟩ := Prod.mk.inj h
      exact ⟨bytes, he, lookup?_put_self _ hw.ne_root⟩
    · simp at h

/-- A removal touches nothing but its path, at which nothing is left. -/
theorem remove_touches (hp : d.Plain p.parts) (h : d.remove p = .ok d') :
    Touches [p.parts] d d' ∧ d'.lookup? p.parts = none := by
  unfold remove at h
  split at h
  · cases h
  rename_i hl
  obtain ⟨rfl, -, -⟩ := locate_ok hp hl
  split at h
  · cases h
  · rename_i e hdirectory he
    cases h
    have hfree : d.lookup? p.parts ≠ some .directory := by
      rw [he]
      exact fun hd => hdirectory (Option.some.inj hd)
    have hroot : p.parts ≠ [] := by
      intro hr
      rw [hr] at hfree
      exact hfree rfl
    have hsame (y : Place) (hy : y ∉ [p.parts]) : (d.erase p.parts).lookup? y = d.lookup? y :=
      lookup?_erase_of_ne d (by simpa using hy)
    refine ⟨⟨⟨?_, fun tree => tree.erase hfree, fun y hy => Or.inl (hsame y hy)⟩, hsame⟩,
      lookup?_erase_self d hroot⟩
    intro y target hl
    by_cases hy : y = p.parts
    · subst hy
      rw [lookup?_erase_self d hroot] at hl
      cases hl
    · rw [lookup?_erase_of_ne d hy] at hl
      exact hl
  · cases h

theorem remove_noEntry {q : Path} (tree : d.IsTree) (hp : d.Plain p.parts)
    (h : d.remove p = .error (.system .noEntry q)) : d.lookup? p.parts = none := by
  unfold remove at h
  split at h
  · rename_i hl
    cases h
    exact lookup?_of_noEntry tree hp hl
  rename_i hl
  obtain ⟨rfl, -, -⟩ := locate_ok hp hl
  split at h
  · cases h
  · cases h
  · assumption

/-- After a file was taken away if it was there, it is not there. -/
theorem removeIfPresent_ok (hp : d.Plain p.parts) (h : d.removeIfPresent p = .ok d') :
    Touches [p.parts] d d' ∧ (d.IsTree → d'.lookup? p.parts = none) := by
  unfold removeIfPresent at h
  split at h
  · rename_i hr
    cases h
    exact ⟨Touches.refl _ d, fun tree => remove_noEntry tree hp hr⟩
  · obtain ⟨ht, hn⟩ := remove_touches hp h
    exact ⟨ht, fun _ => hn⟩

/-- A directory that is made is all that is new. -/
theorem makeDirectory_grows (hp : d.Plain p.parts) (h : d.makeDirectory p = .ok d') :
    Grows [] d d' := by
  unfold makeDirectory at h
  split at h
  · cases h
  rename_i hl
  obtain ⟨rfl, hparent, -⟩ := locate_ok hp hl
  split at h
  · cases h
  · rename_i hn
    cases h
    have hroot : p.parts ≠ [] := by
      intro hr
      rw [hr, lookup?_root] at hn
      cases hn
    refine ⟨?_, fun tree => tree.put hparent fun _ => rfl, ?_⟩
    · intro y target hl
      by_cases hy : y = p.parts
      · subst hy
        rw [lookup?_put_self d hroot] at hl
        cases hl
      · rw [lookup?_put_of_ne d hy] at hl
        exact hl
    · intro y _
      by_cases hy : y = p.parts
      · subst hy
        exact Or.inr ⟨hn, lookup?_put_self d hroot⟩
      · exact Or.inl (lookup?_put_of_ne d hy)

theorem ensureDirectory_grows (hp : d.Plain p.parts) (h : d.ensureDirectory p = .ok d') :
    Grows [] d d' := by
  unfold ensureDirectory at h
  split at h
  · rename_i hm
    cases h
    exact makeDirectory_grows hp hm
  · split at h
    · split at h
      · cases h
        exact (Touches.refl _ d).toGrows
      · cases h
      · cases h
    · cases h

/-- Making the directories above a path takes nothing away. -/
theorem ensureBelow_grows (root : Text) {names : List Text} (hp : d.Plain names.reverse) :
    Grows [] d (ensureBelow root names d).1 := by
  induction names generalizing d with
  | nil =>
    unfold ensureBelow
    split
    · rename_i he
      exact ensureDirectory_grows (Plain.root d) he
    · exact (Touches.refl _ d).toGrows
  | cons name outer ih =>
    have hrefl := (Touches.refl [] d).toGrows
    have houter : d.Plain outer.reverse := hp.of_prefix (by simp)
    unfold ensureBelow
    dsimp only
    split
    · rename_i hm
      exact makeDirectory_grows hp hm
    · have hbelow := ih houter
      split
      · rename_i hb
        rw [hb] at hbelow
        exact hbelow
      · rename_i hb
        rw [hb] at hbelow
        split
        · rename_i he
          exact hbelow.trans (ensureDirectory_grows (hbelow.plain hp) he)
        · exact hbelow
    · split
      · split <;> exact hrefl
      · exact hrefl

theorem ensureDirectories_grows (hp : d.Plain p.parts) : Grows [] d (d.ensureDirectories p).1 :=
  ensureBelow_grows p.root (by rw [List.reverse_reverse]; exact hp)

end CodeAgent.Disk

namespace CodeAgent.Volume
open Disk

variable {v v' : Volume} {p : Path} {t : Text}

theorem ensureDirectories_grows (hp : v.disk.Plain p.parts) :
    Grows [] v.disk (v.ensureDirectories p).1.disk := by
  unfold ensureDirectories
  split
  · exact Disk.ensureDirectories_grows hp
  · exact Disk.ensureDirectories_grows (hp.of_prefix (List.take_prefix _ _))

theorem writeText_touches (hp : v.disk.Plain p.parts) (t : Text) :
    Touches [p.parts] v.disk (v.writeText p t).1.disk := by
  unfold writeText
  split
  · exact Disk.writeText_touches hp t
  · rename_i r _ _
    dsimp only
    cases hl : r.left with
    | none => exact Touches.refl _ _
    | some bytes =>
      rw [Option.bind_some]
      cases hb : v.disk.writeBytes p bytes with
      | error fault => exact Touches.refl _ _
      | ok d => exact writeBytes_touches hp hb

theorem writeText_ok (hp : v.disk.Plain p.parts) (h : v.writeText p t = (v', .ok ())) :
    ∃ bytes, Utf8.encode t = .ok bytes ∧ v'.disk.lookup? p.parts = some (.file bytes) := by
  unfold writeText at h
  split at h
  · obtain ⟨rfl, hr⟩ := Prod.mk.inj h
    exact Disk.writeText_ok hp (Prod.ext rfl hr)
  · simp at h

theorem removeIfPresent_touches (hp : v.disk.Plain p.parts) :
    Touches [p.parts] v.disk (v.removeIfPresent p).1.disk := by
  unfold removeIfPresent
  split
  · split
    · rename_i hr
      exact (removeIfPresent_ok hp hr).1
    · exact Touches.refl _ _
  · exact Touches.refl _ _

theorem removeIfPresent_ok (tree : v.disk.IsTree) (hp : v.disk.Plain p.parts)
    (h : v.removeIfPresent p = (v', .ok ())) : v'.disk.lookup? p.parts = none := by
  unfold removeIfPresent at h
  split at h
  · split at h
    · rename_i hr
      obtain ⟨rfl, -⟩ := Prod.mk.inj h
      exact (Disk.removeIfPresent_ok hp hr).2 tree
    · simp at h
  · simp at h

end CodeAgent.Volume
