import Retrofit.Patch.Job
import Retrofit.Proofs.Files.Tree
import Retrofit.Proofs.Path.Artifact

/-!
# The source and the artifact of a job

**Theorem (`PatchJob.apart_ofFile`).** The artifact of a job is never the file it is made from, as
long as the marker holds no slash and the file has an ordinary name.

Both paths lead into the same directory, since they differ in the last segment only, and two
ordinary names in one directory are two places (`Files.apart_of_segments`).
-/

namespace Retrofit

variable {files : Files} {path other marker : String} {place parent : Place}
  {pre : List Path.Segment} {segment a b : Path.Segment}

theorem Place.path_concat_inj (h : Place.path (parent ++ [a]) = Place.path (parent ++ [b])) :
    a = b := by
  obtain ⟨front, hfront⟩ := Path.exists_front parent
  simp only [Place.path, Path.ofSegments, hfront, String.append_right_inj, String.ofList_inj,
    List.append_cancel_left_eq] at h
  exact h

namespace Files

/-- A path that ends in an ordinary name leads into the directory of the segments in front. -/
theorem locate_concat (hpath : Path.segments path = pre ++ [segment])
    (hord : Path.IsOrdinary segment) (h : files.locate path = .ok place) :
    ∃ parent, pre.foldlM files.step (if pre.head? == some [] then [] else files.current) =
      .ok parent ∧ place = parent ++ [segment] := by
  obtain ⟨-, -, -, hfold⟩ := locate_eq_ok.mp h
  rw [Path.isAbsolute_of_segments hpath, hpath, List.foldlM_append, bind_eq_ok] at hfold
  obtain ⟨parent, hparent, hlast⟩ := hfold
  exact ⟨parent, hparent, eq_append_of_foldlM (List.forall_mem_singleton.mpr hord) hlast⟩

/-- Two ordinary names behind the same segments lead to two places. -/
theorem apart_of_segments (hpath : Path.segments path = pre ++ [a])
    (hother : Path.segments other = pre ++ [b]) (ha : Path.IsOrdinary a) (hb : Path.IsOrdinary b)
    (hne : a ≠ b) : files.Apart path other := by
  intro place place' hplace hplace' heq
  obtain ⟨parent, hparent, rfl⟩ := locate_concat hpath ha hplace
  obtain ⟨parent', hparent', rfl⟩ := locate_concat hother hb hplace'
  rw [hparent, Except.ok.injEq] at hparent'
  subst hparent'
  exact hne (Place.path_concat_inj heq)

end Files

/-- A file and its patched form have the same segments in front of their names. -/
theorem Path.segments_under_patchedName (hmarker : '/' ∉ marker.toList) (root path : String) :
    ∃ pre a b, segments (under root path) = pre ++ [a ++ b] ∧ (a = [] → b = []) ∧
      (basename path).toList = a ++ b ∧
      segments (under root (patchedName path marker)) = pre ++ [mark marker a b] := by
  obtain ⟨pre, a, b, hpath, hab, hpatched⟩ := segments_patchedName hmarker path
  have hname : (basename path).toList = a ++ b := by simp [basename, hpath]
  have habs := isAbsolute_patchedName hmarker path
  cases h : isAbsolute path with
  | true =>
    rw [h] at habs
    refine ⟨pre, a, b, ?_, hab, hname, ?_⟩
    · rw [under, if_pos h, hpath]
    · rw [under, if_pos habs, hpatched]
  | false =>
    rw [h] at habs
    obtain ⟨front, hfront⟩ := segments_under root
    refine ⟨front ++ pre, a, b, ?_, hab, hname, ?_⟩
    · rw [hfront path h, hpath, List.append_assoc]
    · rw [hfront _ habs, hpatched, List.append_assoc]

/-- **A job does not write its source.** -/
theorem PatchJob.apart_ofFile (hmarker : '/' ∉ marker.toList) (root directory name : String)
    (file : String × List Transform)
    (hord : Path.IsOrdinary (Path.basename (Path.join (Path.join directory name) file.1)).toList) :
    files.Apart (ofFile root directory marker name file).source
      (ofFile root directory marker name file).artifact := by
  obtain ⟨pre, a, b, hsource, hab, hname, hartifact⟩ :=
    Path.segments_under_patchedName hmarker root (Path.join (Path.join directory name) file.1)
  rw [hname] at hord
  simp only [ofFile]
  exact Files.apart_of_segments hsource hartifact hord (hord.mark hab marker)
    (Path.mark_ne marker a b).symm

end Retrofit
