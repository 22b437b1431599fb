import Mathlib.Data.List.TakeWhile
import Immutavault.InternetAddresses

/-!
# Texts of addresses are read back

Addresses, interfaces and networks are written in one way each, and what is written is read
as the value it was written from. A number is the groups of digits it is made of; in an
address of version 6 the numbers that are left out are a stretch of zeros, and the parts
that are left have digits, apart from the place of the stretch and an outer end that it
reaches. So the reader finds the stretch where it was, and fills it with zeros again.
-/

namespace Immutavault.InternetAddresses

open SeparatedTexts

section Groups

/-- The groups of a number make it up again. -/
theorem whole_groupsOf {base count value : Nat} (small : value < base ^ count) :
    whole base (groupsOf base count value) = value := by
  induction count generalizing value with
  | zero =>
    rw [Nat.pow_zero, Nat.lt_one_iff] at small
    exact small.symm
  | succ count inductionHypothesis =>
    have positive : 0 < base := Nat.pos_of_ne_zero fun zero => by simp [zero] at small
    have quotient : value / base < base ^ count :=
      (Nat.div_lt_iff_lt_mul positive).mpr (Nat.pow_succ base count ▸ small)
    have before := inductionHypothesis quotient
    rw [whole] at before ⊢
    rw [groupsOf, List.foldl_append, before]
    exact Nat.div_add_mod value base

theorem length_groupsOf (base count value : Nat) : (groupsOf base count value).length = count := by
  induction count generalizing value with
  | zero => rfl
  | succ count inductionHypothesis => simp [groupsOf, inductionHypothesis]

theorem lt_of_mem_groupsOf {base : Nat} (positive : 0 < base) {count value group : Nat}
    (member : group ∈ groupsOf base count value) : group < base := by
  induction count generalizing value with
  | zero => cases member
  | succ count inductionHypothesis =>
    rcases List.mem_append.mp member with before | last
    · exact inductionHypothesis before
    · rw [List.mem_singleton.mp last]
      exact Nat.mod_lt _ positive

/-- The hexadecimal digits of a number are digits and have its value. -/
theorem toDigits_hex (value : Nat) : (Nat.toDigits 16 value).all isHexDigit = true ∧
    whole 16 ((Nat.toDigits 16 value).map hexValue) = value := by
  have digits : ∀ digit < 16, isHexDigit (Nat.digitChar digit) = true ∧
      hexValue (Nat.digitChar digit) = digit := by decide
  induction value using Nat.strongRecOn with
  | _ value inductionHypothesis =>
    by_cases small : value < 16
    · rw [Nat.toDigits_of_lt_base small]
      simp [whole, digits value small]
    · obtain ⟨all, before⟩ := inductionHypothesis (value / 16) (by omega)
      have last := digits (value % 16) (Nat.mod_lt _ (by decide))
      rw [Nat.toDigits_of_base_le (by decide) (by omega)]
      refine ⟨by simp [all, last], ?_⟩
      rw [whole] at before ⊢
      rw [List.map_append, List.foldl_append, before, List.map_singleton, last.2]
      exact Nat.div_add_mod value 16

theorem parseHextet_toDigits {value : Nat} (small : value < 65536) :
    parseHextet (Nat.toDigits 16 value) = some value := by
  have short : (Nat.toDigits 16 value).length ≤ 4 :=
    (Nat.length_toDigits_le_iff (by decide) (by decide)).mpr small
  have fine : ¬ (¬ (Nat.toDigits 16 value).all isHexDigit = true ∨
      4 < (Nat.toDigits 16 value).length ∨ Nat.toDigits 16 value = []) := by
    rintro (other | long | empty)
    · exact other (toDigits_hex value).1
    · omega
    · exact Nat.toDigits_ne_nil empty
  rw [parseHextet, if_neg fine, (toDigits_hex value).2]

theorem parseOctet_toDigits {value : Nat} (small : value < 256) :
    parseOctet (Nat.toDigits 10 value) = some value := by
  have each : ∀ value < 256, parseOctet (Nat.toDigits 10 value) = some value := by decide +kernel
  exact each value small

theorem not_mem_toDigits_hex {mark : Char} (other : isHexDigit mark = false) (value : Nat) :
    mark ∉ Nat.toDigits 16 value := by
  intro member
  have digit := List.all_eq_true.mp (toDigits_hex value).1 mark member
  rw [other] at digit
  cases digit

theorem not_mem_toDigits {mark : Char} (other : mark.isDigit = false) (value : Nat) :
    mark ∉ Nat.toDigits 10 value := by
  intro member
  have digit := Nat.isDigit_of_mem_toDigits (by decide) (by decide) member
  rw [other] at digit
  cases digit

theorem parseIPv4_text {value : Nat} (bounded : value ≤ Version.v4.allOnes) :
    parseIPv4 (textIPv4 value) = some value := by
  have parts : (textIPv4 value).splitOn '.' = (groupsOf 256 4 value).map (Nat.toDigits 10) := by
    refine List.splitOn_intercalate _ (fun part member => ?_) (by simp [groupsOf])
    obtain ⟨octet, _, rfl⟩ := List.mem_map.mp member
    exact not_mem_toDigits (by decide) octet
  have octets : ((groupsOf 256 4 value).map (Nat.toDigits 10)).mapM parseOctet =
      some (groupsOf 256 4 value) :=
    mapM_texts fun octet member => parseOctet_toDigits (lt_of_mem_groupsOf (by decide) member)
  have four : ((groupsOf 256 4 value).map (Nat.toDigits 10)).length = 4 := by
    rw [List.length_map, length_groupsOf]
  rw [parseIPv4, parts, if_neg (not_not.mpr four), octets, Option.map_some,
    whole_groupsOf (Nat.lt_succ_of_le bounded)]

end Groups

section Stretches

/-- A stretch lies in a list, and there are only zeros in it. -/
def Stretch.Zeros (stretch : Stretch) (hextets : List Nat) : Prop :=
  stretch.start + stretch.length ≤ hextets.length ∧
    ∀ index, stretch.start ≤ index → index < stretch.start + stretch.length →
      hextets[index]? = some 0

theorem Stretch.Zeros.append {stretch : Stretch} {hextets : List Nat}
    (zeros : stretch.Zeros hextets) (more : List Nat) : stretch.Zeros (hextets ++ more) := by
  refine ⟨by simpa using zeros.1.trans (Nat.le_add_right _ _), fun index behind before => ?_⟩
  rw [List.getElem?_append_left (Nat.lt_of_lt_of_le before zeros.1)]
  exact zeros.2 index behind before

/-- Both stretches are stretches of what has been read, and the second one reaches up to
its end. -/
structure Stretches.Valid (stretches : Stretches) (seen : List Nat) : Prop where
  best : stretches.best.Zeros seen
  current : stretches.current.Zeros seen
  reaches : stretches.current.length ≠ 0 →
    stretches.current.start + stretches.current.length = seen.length

theorem zeros_empty (hextets : List Nat) : (⟨0, 0⟩ : Stretch).Zeros hextets :=
  ⟨Nat.zero_le _, fun _ _ before => absurd before (Nat.not_lt_zero _)⟩

theorem Stretches.Valid.step {stretches : Stretches} {seen : List Nat}
    (valid : stretches.Valid seen) (hextet : Nat) :
    (stretches.step seen.length hextet).Valid (seen ++ [hextet]) := by
  unfold Stretches.step
  split
  · rename_i zero
    subst zero
    have current : (⟨if stretches.current.length = 0 then seen.length else stretches.current.start,
        stretches.current.length + 1⟩ : Stretch).Zeros (seen ++ [0]) := by
      refine ⟨?_, fun index behind before => ?_⟩
      · have reaches := valid.reaches
        simp only [List.length_append, List.length_singleton]
        split <;> omega
      · dsimp only at behind before
        by_cases old : index < seen.length
        · have within := valid.reaches
          rw [List.getElem?_append_left old]
          split at behind
          · omega
          · exact valid.current.2 index behind (by omega)
        · have last : index = seen.length := by
            have reaches := valid.reaches
            split at before <;> omega
          rw [last, List.getElem?_concat_length]
    refine ⟨?_, current, fun _ => ?_⟩
    · dsimp only
      split
      · exact current
      · exact valid.best.append _
    · have reaches := valid.reaches
      simp only [List.length_append, List.length_singleton]
      split <;> omega
  · exact ⟨valid.best.append _, zeros_empty _, fun filled => absurd rfl filled⟩

theorem Stretches.Valid.scan {stretches : Stretches} {seen : List Nat}
    (valid : stretches.Valid seen) (rest : List Nat) :
    (stretches.scan seen.length rest).Valid (seen ++ rest) := by
  induction rest generalizing stretches seen with
  | nil => simpa [Stretches.scan] using valid
  | cons hextet rest inductionHypothesis =>
    have further := inductionHypothesis (valid.step hextet)
    rw [List.length_append, List.length_singleton, List.append_assoc, List.singleton_append]
      at further
    exact further

theorem zeros_longestStretch (hextets : List Nat) : (longestStretch hextets).Zeros hextets := by
  have nothing : Stretches.Valid ⟨⟨0, 0⟩, ⟨0, 0⟩⟩ [] :=
    ⟨zeros_empty [], zeros_empty [], fun filled => absurd rfl filled⟩
  exact (nothing.scan hextets).best

/-- What is left out are zeros. -/
theorem Stretch.Zeros.eq_append {stretch : Stretch} {hextets : List Nat}
    (zeros : stretch.Zeros hextets) : hextets = hextets.take stretch.start ++
      (List.replicate stretch.length 0 ++ hextets.drop (stretch.start + stretch.length)) := by
  have middle : (hextets.drop stretch.start).take stretch.length =
      List.replicate stretch.length 0 := by
    refine List.eq_replicate_iff.mpr ⟨?_, fun hextet member => ?_⟩
    · have room := zeros.1
      rw [List.length_take, List.length_drop]
      omega
    · obtain ⟨index, found⟩ := List.getElem?_of_mem member
      have inside : index < stretch.length := by
        by_contra outside
        rw [List.getElem?_take, if_neg outside] at found
        cases found
      rw [List.getElem?_take_of_lt inside, List.getElem?_drop,
        zeros.2 _ (Nat.le_add_right _ _) (by omega)] at found
      exact (Option.some.inj found).symm
  rw [← middle, ← List.drop_drop, List.take_append_drop, List.take_append_drop]

/-- The parts on one side of the numbers that are left out, as they are written. -/
def sideTexts (hextets : List Nat) : List (List Char) :=
  if hextets = [] then [[]] else hextets.map (Nat.toDigits 16)

theorem sideTexts_ne_nil (hextets : List Nat) : sideTexts hextets ≠ [] := by
  unfold sideTexts
  split
  · simp
  · simpa using ‹_›

theorem length_sideTexts (hextets : List Nat) : (sideTexts hextets).length = max 1 hextets.length := by
  unfold sideTexts
  split
  · simp [*]
  · have filled := List.length_pos_iff.mpr ‹hextets ≠ []›
    rw [List.length_map]
    omega

theorem blank_not_mem_map (hextets : List Nat) : [] ∉ hextets.map (Nat.toDigits 16) := by
  simp [Nat.toDigits_ne_nil]

/-- Only at its outer end can a side be without text. -/
theorem blank_not_mem_inner (hextets : List Nat) :
    [] ∉ (sideTexts hextets).tail ∧ [] ∉ (sideTexts hextets).dropLast := by
  unfold sideTexts
  split
  · simp
  · exact ⟨fun member => blank_not_mem_map hextets (List.mem_of_mem_tail member),
      fun member => blank_not_mem_map hextets (List.dropLast_subset _ member)⟩

/-- A side is read from its texts, at whichever end it is the outer one. -/
theorem sideOf_sideTexts {hextets : List Nat} {outer : List Char} (member : outer ∈ sideTexts hextets) :
    sideOf outer (sideTexts hextets) = some (hextets.map (Nat.toDigits 16)) := by
  unfold sideTexts at member ⊢
  split at member
  · rename_i empty
    subst empty
    rw [if_pos rfl, List.mem_singleton.mp member]
    rfl
  · rename_i filled
    have text : outer ≠ [] := fun blank => blank_not_mem_map hextets (blank ▸ member)
    rw [if_neg filled, sideOf, if_pos text]

theorem skipIndex_sideTexts (high low : List Nat) :
    skipIndex (sideTexts high ++ [] :: sideTexts low) = some (some (sideTexts high).length) := by
  have inner : (sideTexts high ++ [] :: sideTexts low).tail.dropLast =
      (sideTexts high).tail ++ [] :: (sideTexts low).dropLast := by
    rw [List.tail_append_of_ne_nil (sideTexts_ne_nil high),
      List.dropLast_append_of_ne_nil (by simp),
      List.dropLast_cons_of_ne_nil (sideTexts_ne_nil low)]
  have front := (blank_not_mem_inner high).1
  have back := (blank_not_mem_inner low).2
  have once : ((sideTexts high).tail ++ [] :: (sideTexts low).dropLast).count [] = 1 := by
    rw [List.count_append, List.count_cons_self, List.count_eq_zero_of_not_mem front,
      List.count_eq_zero_of_not_mem back]
  have place : ((sideTexts high).tail ++ [] :: (sideTexts low).dropLast).idxOf [] + 1 =
      (sideTexts high).length := by
    have filled := List.length_pos_iff.mpr (sideTexts_ne_nil high)
    rw [List.idxOf_append_of_notMem front, List.idxOf_cons_self, List.length_tail]
    omega
  simp only [skipIndex, inner, once, place]

theorem skipIndex_map (hextets : List Nat) :
    skipIndex (hextets.map (Nat.toDigits 16)) = some none := by
  have none : (hextets.map (Nat.toDigits 16)).tail.dropLast.count [] = 0 :=
    List.count_eq_zero_of_not_mem fun member =>
      blank_not_mem_map hextets (List.mem_of_mem_tail (List.dropLast_subset _ member))
  simp only [skipIndex, none]

/-- What is left out is read as zeros. -/
theorem hextetsOf_sideTexts {high low : List Nat} (front : ∀ hextet ∈ high, hextet < 65536)
    (back : ∀ hextet ∈ low, hextet < 65536) (room : high.length + low.length < 8) :
    hextetsOf (sideTexts high ++ [] :: sideTexts low) =
      some (high ++ List.replicate (8 - (high.length + low.length)) 0 ++ low) := by
  have first : (sideTexts high ++ [] :: sideTexts low).head?.getD [] ∈ sideTexts high := by
    obtain ⟨outer, rest, texts⟩ := List.exists_cons_of_ne_nil (sideTexts_ne_nil high)
    simp [texts]
  have last : (sideTexts high ++ [] :: sideTexts low).getLast?.getD [] ∈ sideTexts low := by
    rw [List.getLast?_append_of_ne_nil _ (by simp),
      List.getLast?_cons_of_ne_nil (sideTexts_ne_nil low),
      List.getLast?_eq_getLast_of_ne_nil (sideTexts_ne_nil low)]
    exact List.getLast_mem _
  have readHigh : (high.map (Nat.toDigits 16)).mapM parseHextet = some high :=
    mapM_texts fun hextet member => parseHextet_toDigits (front hextet member)
  have readLow : (low.map (Nat.toDigits 16)).mapM parseHextet = some low :=
    mapM_texts fun hextet member => parseHextet_toDigits (back hextet member)
  have behind : (sideTexts high ++ [] :: sideTexts low).drop ((sideTexts high).length + 1) =
      sideTexts low := by
    rw [List.drop_append]
    simp
  unfold hextetsOf
  rw [skipIndex_sideTexts]
  simp only [Option.bind_eq_bind, Option.bind_some, List.take_left, behind,
    sideOf_sideTexts first, sideOf_sideTexts last, List.length_map, readHigh, readLow,
    if_neg (Nat.not_le.mpr room)]
  rfl

theorem hextetsOf_map {hextets : List Nat} (eight : hextets.length = 8)
    (small : ∀ hextet ∈ hextets, hextet < 65536) :
    hextetsOf (hextets.map (Nat.toDigits 16)) = some hextets := by
  have read : (hextets.map (Nat.toDigits 16)).mapM parseHextet = some hextets :=
    mapM_texts fun hextet member => parseHextet_toDigits (small hextet member)
  unfold hextetsOf
  rw [skipIndex_map]
  simp only [Option.bind_eq_bind, Option.bind_some, List.length_map, eight, read]
  rfl

/-- Either all numbers are written, or a stretch of zeros is left out between two sides. -/
theorem compressed_cases {hextets : List Nat} (filled : hextets ≠ []) :
    compressed hextets = hextets.map (Nat.toDigits 16) ∨
      ∃ high count low, hextets = high ++ List.replicate count 0 ++ low ∧ 1 < count ∧
        compressed hextets = sideTexts high ++ [] :: sideTexts low := by
  have zeros := zeros_longestStretch hextets
  unfold compressed
  dsimp only
  split
  · exact Or.inl rfl
  · rename_i long
    refine Or.inr ⟨_, _, _, zeros.eq_append.trans (List.append_assoc _ _ _).symm, by omega, ?_⟩
    have front : (hextets.take (longestStretch hextets).start = []) ↔
        (longestStretch hextets).start = 0 := by
      simp [List.take_eq_nil_iff, filled]
    have back : (hextets.drop ((longestStretch hextets).start + (longestStretch hextets).length) =
        []) ↔ (longestStretch hextets).start + (longestStretch hextets).length =
          (hextets.map (Nat.toDigits 16)).length := by
      have room := zeros.1
      rw [List.drop_eq_nil_iff, List.length_map]
      omega
    rw [sideTexts, sideTexts, List.map_take, List.map_drop, if_congr front rfl rfl,
      if_congr back rfl rfl]

/-- A part of a version 6 address is without text, or has the digits of a number. -/
def IsPart (part : List Char) : Prop := part = [] ∨ ∃ hextet, part = Nat.toDigits 16 hextet

theorem isPart_of_mem_map {hextets : List Nat} {part : List Char}
    (member : part ∈ hextets.map (Nat.toDigits 16)) : IsPart part := by
  obtain ⟨hextet, _, rfl⟩ := List.mem_map.mp member
  exact Or.inr ⟨hextet, rfl⟩

theorem isPart_of_mem_sideTexts {hextets : List Nat} {part : List Char}
    (member : part ∈ sideTexts hextets) : IsPart part := by
  unfold sideTexts at member
  split at member
  · exact Or.inl (List.mem_singleton.mp member)
  · exact isPart_of_mem_map member

theorem IsPart.not_mem {part : List Char} (isPart : IsPart part) {mark : Char}
    (other : isHexDigit mark = false) : mark ∉ part := by
  rcases isPart with rfl | ⟨hextet, rfl⟩
  · exact List.not_mem_nil
  · exact not_mem_toDigits_hex other hextet

theorem isPart_of_mem_compressed {hextets : List Nat} (filled : hextets ≠ []) {part : List Char}
    (member : part ∈ compressed hextets) : IsPart part := by
  rcases compressed_cases filled with whole | ⟨high, count, low, _, _, skipped⟩
  · exact isPart_of_mem_map (whole ▸ member)
  · rw [skipped, List.mem_append, List.mem_cons] at member
    rcases member with front | blank | back
    · exact isPart_of_mem_sideTexts front
    · exact Or.inl blank
    · exact isPart_of_mem_sideTexts back

/-- Eight numbers are written in three to nine parts, and read from these. -/
theorem compressed_spec {hextets : List Nat} (eight : hextets.length = 8)
    (small : ∀ hextet ∈ hextets, hextet < 65536) :
    hextetsOf (compressed hextets) = some hextets ∧ 3 ≤ (compressed hextets).length ∧
      (compressed hextets).length ≤ 9 := by
  have filled : hextets ≠ [] := fun empty => by simp [empty] at eight
  rcases compressed_cases filled with whole | ⟨high, count, low, rfl, long, skipped⟩
  · rw [whole, List.length_map, eight]
    exact ⟨hextetsOf_map eight small, by decide, by decide⟩
  · simp only [List.length_append, List.length_replicate] at eight
    have read := hextetsOf_sideTexts (fun hextet member => small hextet (by simp [member]))
      (fun hextet member => small hextet (by simp [member]))
      (show high.length + low.length < 8 by omega)
    have zeros : 8 - (high.length + low.length) = count := by omega
    rw [skipped, read, zeros, List.length_append, List.length_cons, length_sideTexts,
      length_sideTexts]
    exact ⟨rfl, by omega, by omega⟩

end Stretches

section Addresses

theorem parseIPv6_text {value : Nat} (bounded : value ≤ Version.v6.allOnes) :
    parseIPv6 (textIPv6 value) = some value := by
  have eight := length_groupsOf 65536 8 value
  obtain ⟨read, least, most⟩ := compressed_spec eight fun hextet member =>
    lt_of_mem_groupsOf (by decide) member
  have filled : groupsOf 65536 8 value ≠ [] := fun empty => by simp [empty] at eight
  have isPart : ∀ part ∈ compressed (groupsOf 65536 8 value), IsPart part :=
    fun part member => isPart_of_mem_compressed filled member
  have parts : (textIPv6 value).splitOn ':' = compressed (groupsOf 65536 8 value) := by
    refine List.splitOn_intercalate _ (fun part member => (isPart part member).not_mem (by decide)) ?_
    intro empty
    simp [empty] at least
  have hexadecimal : '.' ∉ (compressed (groupsOf 65536 8 value)).getLast?.getD [] := by
    cases last : (compressed (groupsOf 65536 8 value)).getLast? with
    | none => exact List.not_mem_nil
    | some part => exact (isPart part (List.mem_of_getLast? last)).not_mem (by decide)
  have split : partsOf (textIPv6 value) = some (compressed (groupsOf 65536 8 value)) := by
    simp only [partsOf, parts, if_neg (Nat.not_lt.mpr least), if_neg hexadecimal]
  have small : value < 65536 ^ 8 := Nat.lt_succ_of_le bounded
  simp only [parseIPv6, split, Option.bind_eq_bind, Option.bind_some, if_neg (Nat.not_lt.mpr most),
    read, whole_groupsOf small]
  rfl

/-- A character that is neither a hexadecimal digit nor a colon is not in an address. -/
theorem not_mem_textIPv6 {mark : Char} (other : isHexDigit mark = false) (colon : mark ≠ ':')
    (value : Nat) : mark ∉ textIPv6 value := by
  have filled : groupsOf 65536 8 value ≠ [] := fun empty => by
    simpa [empty] using length_groupsOf 65536 8 value
  exact not_mem_intercalate (by simpa using colon) fun part member =>
    (isPart_of_mem_compressed filled member).not_mem other

theorem not_mem_textIPv4 {mark : Char} (other : mark.isDigit = false) (dot : mark ≠ '.')
    (value : Nat) : mark ∉ textIPv4 value := by
  refine not_mem_intercalate (by simpa using dot) fun part member => ?_
  obtain ⟨octet, _, rfl⟩ := List.mem_map.mp member
  exact not_mem_toDigits other octet

theorem isDigit_of_parseOctet {octet : List Char} {value : Nat}
    (read : parseOctet octet = some value) {mark : Char} (member : mark ∈ octet) :
    mark.isDigit = true := by
  unfold parseOctet at read
  split at read
  · cases read
  · rename_i fine
    simp only [not_or, not_not] at fine
    exact List.all_eq_true.mp fine.2.1 mark member

/-- What is read as a version 4 address has only digits and dots. -/
theorem mem_of_parseIPv4 {text : List Char} {value : Nat} (read : parseIPv4 text = some value)
    {mark : Char} (member : mark ∈ text) : mark.isDigit = true ∨ mark = '.' := by
  unfold parseIPv4 at read
  dsimp only at read
  split at read
  · cases read
  · obtain ⟨octets, each, _⟩ := Option.map_eq_some_iff.mp read
    have joined : mark ∈ ['.'].intercalate (text.splitOn '.') := by
      rwa [List.intercalate_splitOn]
    rcases mem_of_mem_intercalate joined with dot | ⟨part, listed, inside⟩
    · exact Or.inr (List.mem_singleton.mp dot)
    · obtain ⟨octet, digits⟩ := parsed_of_mem each listed
      exact Or.inl (isDigit_of_parseOctet digits inside)

theorem splitZone_plain {text : List Char} (plain : '%' ∉ text) :
    splitZone text = some (text, none) := by
  have nothing : text.dropWhile (· ≠ '%') = [] := by
    rw [List.dropWhile_eq_nil_iff]
    intro mark member
    exact decide_eq_true fun same => plain (same ▸ member)
  unfold splitZone
  rw [nothing]

theorem splitZone_zone {text : List Char} (plain : '%' ∉ text) (zone : Zone) :
    splitZone (text ++ '%' :: zone.val) = some (text, some zone) := by
  have all : ∀ mark ∈ text, decide (mark ≠ '%') = true := fun mark member =>
    decide_eq_true fun same => plain (same ▸ member)
  have before : (text ++ '%' :: zone.val).takeWhile (· ≠ '%') = text := by
    rw [List.takeWhile_append_of_pos all]
    simp
  have behind : (text ++ '%' :: zone.val).dropWhile (· ≠ '%') = '%' :: zone.val := by
    rw [List.dropWhile_append_of_pos all]
    simp
  unfold splitZone
  rw [before, behind]
  exact dif_pos zone.property

/-- An address is read back from its text. -/
theorem parseAddress_text (address : Address) :
    parseAddress address.version address.text = some address := by
  have slash : ∀ value, '/' ∉ textIPv6 value := not_mem_textIPv6 (by decide) (by decide)
  have percent : ∀ value, '%' ∉ textIPv6 value := not_mem_textIPv6 (by decide) (by decide)
  cases address with
  | v4 value bounded =>
    exact Option.pmap_eq_some_iff.mpr ⟨value, bounded, parseIPv4_text bounded, rfl⟩
  | v6 value zone bounded =>
    cases zone with
    | none =>
      simp only [parseAddress, Address.version, Address.text, if_neg (slash value),
        splitZone_plain (percent value), Option.bind_some]
      exact Option.pmap_eq_some_iff.mpr ⟨value, bounded, parseIPv6_text bounded, rfl⟩
    | some zone =>
      have whole : '/' ∉ textIPv6 value ++ '%' :: zone.val := by
        simp [slash value, zone.property.2.2]
      simp only [parseAddress, Address.version, Address.text, if_neg whole,
        splitZone_zone (percent value), Option.bind_some]
      exact Option.pmap_eq_some_iff.mpr ⟨value, bounded, parseIPv6_text bounded, rfl⟩

/-- The text of a version 6 address is none of version 4. -/
theorem parseAddress_v4_text (value : Nat) (zone : Option Zone)
    (bounded : value ≤ Version.v6.allOnes) :
    parseAddress .v4 (Address.v6 value zone bounded).text = none := by
  have filled := length_groupsOf 65536 8 value
  have several : 2 ≤ (compressed (groupsOf 65536 8 value)).length :=
    Nat.le_of_succ_le (compressed_spec filled fun hextet member =>
      lt_of_mem_groupsOf (by decide) member).2.1
  have colon : ':' ∈ textIPv6 value :=
    separator_mem_intercalate several (List.mem_singleton.mpr rfl)
  have member : ':' ∈ (Address.v6 value zone bounded).text := by
    cases zone with
    | none => exact colon
    | some zone => exact List.mem_append_left _ colon
  cases read : parseIPv4 (Address.v6 value zone bounded).text with
  | none => simp [parseAddress, read]
  | some number =>
    rcases mem_of_parseIPv4 read member with digit | dot
    · cases digit
    · cases dot

theorem ipAddress_text (address : Address) : ipAddress address.text = some address := by
  have read := parseAddress_text address
  cases address with
  | v4 value bounded => exact Option.or_eq_some_iff.mpr (Or.inl read)
  | v6 value zone bounded =>
    exact Option.or_eq_some_iff.mpr (Or.inr ⟨parseAddress_v4_text value zone bounded, read⟩)

end Addresses

section Networks

theorem slash_not_mem_text (address : Address) : '/' ∉ address.text := by
  cases address with
  | v4 value bounded => exact not_mem_textIPv4 (by decide) (by decide) value
  | v6 value zone bounded =>
    have plain : '/' ∉ textIPv6 value := not_mem_textIPv6 (by decide) (by decide) value
    cases zone with
    | none => exact plain
    | some zone => simp [Address.text, plain, zone.property.2.2]

theorem parsePrefix_toDigits {version : Version} {prefixlen : Nat}
    (bounded : prefixlen ≤ version.width) :
    parsePrefix version (Nat.toDigits 10 prefixlen) = some prefixlen := by
  have digits : prefixOfDigits version (Nat.toDigits 10 prefixlen) = some prefixlen := by
    have fine : ¬ (Nat.toDigits 10 prefixlen = [] ∨
        ¬ (Nat.toDigits 10 prefixlen).all Char.isDigit = true) := by
      rintro (empty | other)
      · exact Nat.toDigits_ne_nil empty
      · exact other (List.all_eq_true.mpr fun digit member =>
          Nat.isDigit_of_mem_toDigits (by decide) (by decide) member)
    simp only [prefixOfDigits, if_neg fine, Nat.ofDigitChars_ten_toDigits,
      if_neg (Nat.not_lt.mpr bounded)]
  cases version with
  | v4 => exact Option.or_eq_some_iff.mpr (Or.inl digits)
  | v6 => exact digits

theorem splitOn_interface (interface : Interface) : interface.text.splitOn '/' =
    [interface.address.text, Nat.toDigits 10 interface.prefixlen] := by
  rw [Interface.text, List.splitOn_append_cons_self_of_not_mem (slash_not_mem_text _),
    List.splitOn_eq_singleton (not_mem_toDigits (by decide) _)]

/-- An interface is read back from its text. -/
theorem ipInterface_text (interface : Interface) : ipInterface interface.text = some interface := by
  have read : parseInterface interface.address.version interface.text = some interface := by
    simp only [parseInterface, splitOn_interface, parseAddress_text, Option.bind_some]
    exact Option.pmap_eq_some_iff.mpr
      ⟨interface.prefixlen, interface.bounded, parsePrefix_toDigits interface.bounded, rfl⟩
  obtain ⟨address, prefixlen, bounded⟩ := interface
  cases address with
  | v4 value small => exact Option.or_eq_some_iff.mpr (Or.inl read)
  | v6 value zone small =>
    have other : parseInterface .v4 (Interface.text ⟨.v6 value zone small, prefixlen, bounded⟩) =
        none := by
      simp only [parseInterface, splitOn_interface, parseAddress_v4_text, Option.bind_none]
    exact Option.or_eq_some_iff.mpr (Or.inr ⟨other, read⟩)

/-- A network is read back from its text. -/
theorem ipNetwork_text (network : Network) : ipNetwork network.text = .ok network := by
  rw [ipNetwork, ipInterface_text]
  exact dif_pos network.aligned

end Networks

end Immutavault.InternetAddresses
