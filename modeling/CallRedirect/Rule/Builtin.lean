import CallRedirect.Event
import CallRedirect.Rule

/-!
# Built-in rules

Without a rule file one rule applies: calls that finish the spawning of a mob go
through an event hook, which gets the mob as its first argument.
-/

namespace CallRedirect

namespace Rule

/-- The method whose calls are redirected. -/
def finalizeSpawnMethod : String := "finalizeSpawn"

/-- The parameter types of that method, as they stand in a descriptor. -/
def finalizeSpawnParameters : String :=
  "Lnet/minecraft/world/level/ServerLevelAccessor;" ++
  "Lnet/minecraft/world/DifficultyInstance;" ++
  "Lnet/minecraft/world/entity/EntitySpawnReason;" ++
  "Lnet/minecraft/world/entity/SpawnGroupData;"

/-- The return type of that method. -/
def finalizeSpawnResult : String := "Lnet/minecraft/world/entity/SpawnGroupData;"

/-- The classes in which that method is called to spawn a mob. -/
def finalizeSpawnTargets : List ClassTarget := [
  { className := "net/minecraft/world/level/NaturalSpawner"
    methods := [
      "spawnCategoryForPosition(Lnet/minecraft/world/entity/MobCategory;" ++
        "Lnet/minecraft/server/level/ServerLevel;" ++
        "Lnet/minecraft/world/level/chunk/ChunkAccess;Lnet/minecraft/core/BlockPos;" ++
        "Lnet/minecraft/world/level/NaturalSpawner$SpawnPredicate;" ++
        "Lnet/minecraft/world/level/NaturalSpawner$AfterSpawnCallback;)V",
      "spawnMobsForChunkGeneration(Lnet/minecraft/world/level/ServerLevelAccessor;" ++
        "Lnet/minecraft/core/Holder;Lnet/minecraft/world/level/ChunkPos;" ++
        "Lnet/minecraft/util/RandomSource;)V"] },
  { className := "net/minecraft/world/level/BaseSpawner"
    methods := [
      "serverTick(Lnet/minecraft/server/level/ServerLevel;Lnet/minecraft/core/BlockPos;)V"] },
  { className := "net/minecraft/world/level/levelgen/PatrolSpawner"
    methods := [
      "spawnPatrolMember(Lnet/minecraft/server/level/ServerLevel;" ++
        "Lnet/minecraft/core/BlockPos;Lnet/minecraft/util/RandomSource;Z)Z"] },
  { className := "net/minecraft/world/level/levelgen/PhantomSpawner"
    methods := [
      "tick(Lnet/minecraft/server/level/ServerLevel;ZZ)I"] },
  { className := "net/minecraft/world/entity/ai/village/VillageSiege"
    methods := [
      "trySpawn(Lnet/minecraft/server/level/ServerLevel;)V"] },
  { className := "net/minecraft/world/entity/raid/Raid"
    methods := [
      "joinRaid(ILnet/minecraft/world/entity/raid/Raider;Lnet/minecraft/core/BlockPos;Z)V"] },
  { className := "net/minecraft/world/entity/monster/Zombie"
    methods := [
      "hurt(Lnet/minecraft/world/damagesource/DamageSource;F)Z"] }
]

/-- The rule for the spawning of mobs. -/
def finalizeSpawn : Rule where
  name := finalizeSpawnMethod
  kind := .virtual
  method := finalizeSpawnMethod
  descriptor := "(" ++ finalizeSpawnParameters ++ ")" ++ finalizeSpawnResult
  targets := finalizeSpawnTargets
  redirect :=
    .invokeStatic "net/minecraftforge/event/ForgeEventFactory" "onFinalizeSpawn"
      (some ("(Lnet/minecraft/world/entity/Mob;" ++ finalizeSpawnParameters ++ ")" ++
        finalizeSpawnResult))

/-- The event of a rule having been taken into a rule set. -/
def registeredEvent (rule : Rule) : Event :=
  .ruleRegistered rule.name rule.targets.length

end Rule

namespace RuleSet

/-- The built-in rules. -/
def builtin : RuleSet := [Rule.finalizeSpawn]

/-- The events of taking the built-in rules. -/
def builtinEvents : List Event := .builtinRules :: builtin.map (·.registeredEvent)

end RuleSet

end CallRedirect
