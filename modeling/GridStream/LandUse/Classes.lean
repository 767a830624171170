import GridStream.LandUse.Table

/-!
# Land use classes

Land use is stored as one of forty classes: 1 to 20 are the classes of the MODIS satellite, 21 to
40 those of the national land cover data. Deposition schemes have coarser classes of their own, and
every class has a roughness length. The tables of this module give them class by class.
-/

namespace GridStream.LandUse

/-- Land use classes for the dry deposition of particles. -/
inductive ParticleClass
  | evergreen | deciduous | grass | desert | shrubs
  deriving DecidableEq, Repr

namespace ParticleClass

def number : ParticleClass → Nat
  | evergreen => 0
  | deciduous => 1
  | grass => 2
  | desert => 3
  | shrubs => 4

/-- The name that a class is reported under. -/
def name : ParticleClass → String
  | evergreen => "EVERGREEN"
  | deciduous => "DECIDUOUS"
  | grass => "GRASS"
  | desert => "DESERT"
  | shrubs => "SHRUBS"

def entry (c : ParticleClass) : TableEntry := .category c.name c.number

/-- The class of each land use class, from 1 on. -/
def ofLandUse : Array ParticleClass :=
  #[.evergreen, .deciduous, .evergreen, .deciduous, .deciduous, .shrubs, .shrubs, .shrubs, .grass,
    .grass, .grass, .grass, .desert, .grass, .desert, .desert, .desert, .desert, .desert, .desert,
    .desert, .desert, .desert, .desert, .desert, .desert, .desert, .deciduous, .evergreen,
    .deciduous, .shrubs, .shrubs, .grass, .grass, .desert, .desert, .grass, .grass, .deciduous,
    .grass]

end ParticleClass

/-- Land use classes for the dry deposition of gases. -/
inductive GasClass
  | urban | agricultural | range | deciduous | coniferous | mixedForest | water | barren | wetland
  | rangeAg | rockyShrubs
  deriving DecidableEq, Repr

namespace GasClass

def number : GasClass → Nat
  | urban => 0
  | agricultural => 1
  | range => 2
  | deciduous => 3
  | coniferous => 4
  | mixedForest => 5
  | water => 6
  | barren => 7
  | wetland => 8
  | rangeAg => 9
  | rockyShrubs => 10

/-- The name that a class is reported under. -/
def name : GasClass → String
  | urban => "URBAN"
  | agricultural => "AGRICULTURAL"
  | range => "RANGE"
  | deciduous => "DECIDUOUS"
  | coniferous => "CONIFEROUS"
  | mixedForest => "MIXED_FOREST"
  | water => "WATER"
  | barren => "BARREN"
  | wetland => "WETLAND"
  | rangeAg => "RANGE_AG"
  | rockyShrubs => "ROCKY_SHRUBS"

def entry (c : GasClass) : TableEntry := .category c.name c.number

/-- The class of each land use class, from 1 on. -/
def ofLandUse : Array GasClass :=
  #[.coniferous, .deciduous, .coniferous, .deciduous, .mixedForest, .rockyShrubs, .rockyShrubs,
    .rockyShrubs, .range, .range, .wetland, .rangeAg, .urban, .rangeAg, .barren, .barren, .water,
    .barren, .barren, .barren, .water, .barren, .urban, .urban, .urban, .urban, .barren,
    .deciduous, .coniferous, .mixedForest, .rockyShrubs, .rockyShrubs, .range, .range, .barren,
    .barren, .rangeAg, .rangeAg, .wetland, .wetland]

end GasClass

/-- The roughness length in metres of each land use class, from 1 on. The value 999 marks classes
that have none. -/
def roughnessLengths : Array Float :=
  #[0.50, 0.50, 0.50, 0.50, 0.35, 0.03, 0.035, 0.03, 0.15, 0.11, 0.30, 0.10, 0.50, 0.095, 0.001,
    0.01, 0.0001, 999.0, 999.0, 999.0, 0.0001, 0.001, 0.50, 0.70, 1.5, 2.0, 0.01, 0.50, 0.50,
    0.35, 0.025, 0.03, 0.11, 0.20, 0.01, 0.01, 0.10, 0.06, 0.40, 0.20]

/-- Classes for the dry deposition of particles. -/
def particleTable : LookupTable :=
  ⟨"nlcd_seinfeld", ParticleClass.ofLandUse.map ParticleClass.entry,
    by simp [ParticleClass.ofLandUse]⟩

/-- Classes for the dry deposition of gases. -/
def gasTable : LookupTable :=
  ⟨"nlcd_wesely", GasClass.ofLandUse.map GasClass.entry, by simp [GasClass.ofLandUse]⟩

/-- Roughness lengths. -/
def roughnessTable : LookupTable :=
  ⟨"nlcd_z0", roughnessLengths.map TableEntry.float, by simp [roughnessLengths]⟩

end GridStream.LandUse
