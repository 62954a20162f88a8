import PdMasking.Detectors.Registry

/-!
# PdMasking.Ranks — the priorities of the candidates

At the top stand the text that is one value and the e-mail addresses (90), below them the card secrets of
`ContextValueDetector` (86), then all others.  The former are made of one span each (`one_part_of_high`).
-/

namespace PdMasking

/-- A candidate below the card secrets, or one of one span. -/
def Ranked (c : Candidate) : Prop := c.priority < 86 ∨ ∃ p, c.spans = [p]

section Ranks

variable {R : Runtime} {text : Str}

theorem Ranked.low {pdType : PDType} {spans : List (ℕ × ℕ)} {priority : ℤ} {requiresAny : Finset PDType}
    (h : priority < 86) : Ranked ⟨pdType, spans, priority, requiresAny⟩ := Or.inl h

theorem Ranked.one {pdType : PDType} {p : ℕ × ℕ} {priority : ℤ} {requiresAny : Finset PDType} :
    Ranked ⟨pdType, [p], priority, requiresAny⟩ := Or.inr ⟨p, rfl⟩

theorem card_ranked : Yields Ranked ((CardDetector R).detect text) :=
  card_yields (fun _ _ _ _ _ _ _ hle _ => .low (by omega))

theorem inn_ranked : Yields Ranked ((InnDetector R).detect text) :=
  inn_yields (fun _ _ _ _ _ hle => .low (by omega))

theorem identity_ranked : Yields Ranked ((IdentityDocumentDetector R).detect text) :=
  identity_yields (fun _ _ _ _ _ _ _ hle => .low (by omega))

theorem extra_ranked : Yields Ranked ((ExtraDocumentDetector R).detect text) :=
  extra_yields (fun _ _ _ _ _ _ _ _ hle => .low (by omega))

theorem issuance_ranked : Yields Ranked ((IssuanceDetector R).detect text) := by
  refine issuance_yields ?_ (IssuanceDetector.issuers_yields ?_) (IssuanceDetector.birthPlaces_yields ?_)
  · intro r _ m _ pdType _ priority hle requiresAny
    exact .low (by omega)
  · exact fun _ _ _ _ => .one
  · exact fun _ _ _ _ _ _ _ _ => .one

theorem date_ranked : Yields Ranked ((DateDetector R).detect text) :=
  date_yields (fun _ _ _ _ _ _ _ hle _ => .low (by omega))

theorem fio_ranked : Yields Ranked ((FioDetector R).detect text) := by
  refine FioDetector.detect_yields ?_ (fun _ _ _ _ _ _ => .one)
  refine (((FioDetector.byMorphology_yields ?_ 0 _ (List.Subset.refl _)).append (Yields.flatMap ?_)).append
    (FioDetector.byCue_yields ?_ _ (List.Subset.refl _))).append (FioDetector.cardHolders_yields ?_ ?_)
  · exact fun _ _ _ _ _ => .one
  · intro r _
    exact Yields.map (fun _ _ => Yields.one .one)
  · exact fun _ _ _ _ _ => .one
  · exact fun _ _ _ _ _ _ => .one
  · exact fun _ _ => .one

theorem address_ranked : Yields Ranked ((AddressDetector R).detect text) :=
  Yields.map (fun _ _ => Yields.one .one)

theorem labelled_ranked : Yields Ranked ((LabelledValueDetector R).detect text) := by
  refine (((((Yields.flatMap ?_).append (LabelledValueDetector.dates_yields ?_)).append
    (LabelledValueDetector.labelledNames_yields ?_)).append (LabelledValueDetector.clientNames_yields ?_)).append
    (LabelledValueDetector.wholeName_yields ?_)).append (LabelledValueDetector.citizenship_yields ?_)
  · intro r _
    exact Yields.map (fun _ _ => Yields.one (.low (by decide)))
  · exact fun _ _ _ _ _ _ => .one
  · exact fun _ _ _ _ => .one
  · exact fun _ _ => .one
  · exact fun _ _ _ _ _ => .one
  · exact fun _ _ _ _ => .one

theorem context_ranked : Yields Ranked ((ContextValueDetector R).detect text) := by
  refine (((((ContextValueDetector.cardSecrets_yields ?_ ?_ ?_).append
    (ContextValueDetector.numbers_yields ?_ ?_)).append (ContextValueDetector.issuers_yields ?_ ?_)).append
    (ContextValueDetector.roleNames_yields ?_)).append (ContextValueDetector.bareNames_yields ?_ ?_)).append
    (ContextValueDetector.bareAddresses_yields ?_)
  · exact fun _ _ => .one
  · exact fun _ _ _ _ => .one
  · exact fun _ _ => ⟨.one, fun _ _ => .one⟩
  · exact fun _ _ _ _ _ _ _ _ => .one
  · exact fun _ _ _ _ _ _ => .one
  · exact fun _ _ _ => .one
  · exact fun _ _ => .one
  · exact fun _ _ _ _ _ _ _ _ => .one
  · exact fun _ _ _ _ => .one
  · exact fun _ _ => .one
  · exact fun _ _ _ _ _ _ => .one

theorem contact_ranked : Yields Ranked ((ContactDetector R).detect text) :=
  contact_yields (fun _ _ => .one) (fun _ _ => .one) (fun _ _ => .one) (fun _ _ => .one)

theorem standalone_ranked : Yields Ranked ((StandaloneValueDetector R).detect text) := by
  refine Yields.ite (fun _ => Yields.nil) (fun _ => ?_)
  split
  · exact Yields.one .one
  · exact Yields.nil

theorem detectors_ranked : ∀ d ∈ defaultDetectors R, Yields Ranked (d.detect text) := by
  simp only [defaultDetectors, List.forall_mem_cons]
  exact ⟨standalone_ranked, contact_ranked, card_ranked, inn_ranked, identity_ranked, issuance_ranked, extra_ranked,
    date_ranked, fio_ranked, address_ranked, labelled_ranked, context_ranked, List.forall_mem_nil _⟩

/-- The only part of an entity made of one span. -/
theorem parts_of_span {e : Entity} {pdType : PDType} {p : ℕ × ℕ} {priority : ℤ} {requiresAny : Finset PDType}
    (h : makeEntity pdType [p] priority requiresAny = some e) : e.parts = [p] := by
  obtain ⟨q, hq⟩ := List.exists_mem_of_ne_nil _ e.parts_ne
  obtain ⟨hqp, hlt⟩ := (mem_parts_of_makeEntity h).mp hq
  rw [List.mem_singleton.mp hqp] at hlt
  have hperm := parts_perm_of_makeEntity h
  rw [List.filter_cons_of_pos (by simpa using hlt), List.filter_nil] at hperm
  exact List.perm_singleton.mp hperm

/-- So its part is its hull. -/
theorem parts_eq_hull {e : Entity} {p : ℕ × ℕ} (h : e.parts = [p]) : e.parts = [(e.start, e.stop)] := by
  rw [start_of_parts h, stop_of_parts h, h]

/-- **A candidate that is no lower than the card secrets** has one part. -/
theorem one_part_of_high {D : DetectionEngine} (hD : D.detectors = defaultDetectors R) {enabled : Finset PDType}
    {e : Entity} (he : e ∈ D.candidates R text enabled) (hhigh : 86 ≤ e.priority) :
    e.parts = [(e.start, e.stop)] := by
  obtain ⟨d, hd, he⟩ := List.mem_flatMap.mp he
  have hmem : d ∈ defaultDetectors R := hD ▸ (List.mem_filter.mp hd).1
  obtain ⟨o, ho, hoe⟩ := List.mem_filterMap.mp (List.mem_filter.mp he).1
  obtain rfl : o = some e := hoe
  obtain ⟨spans, hmade, hlow | ⟨p, hspans⟩⟩ := detectors_ranked d hmem e ho
  · exact absurd hhigh (not_le_of_gt hlow)
  · dsimp only at hspans
    subst hspans
    exact parts_eq_hull (parts_of_span hmade)

end Ranks

end PdMasking
