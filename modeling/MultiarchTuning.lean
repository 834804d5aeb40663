import MultiarchTuning.Go.Memory
import MultiarchTuning.Go.Strings
import MultiarchTuning.Go.Os
import MultiarchTuning.SystemConfig.Certs
import MultiarchTuning.SystemConfig.Registries
import MultiarchTuning.SystemConfig.CleanupAll
import MultiarchTuning.SystemConfig.RegistriesSpec
import MultiarchTuning.SystemConfig.RegistriesRun
import MultiarchTuning.SystemConfig.Policy
import MultiarchTuning.PodPlacement.Pod
import MultiarchTuning.PodPlacement.Webhook
import MultiarchTuning.PodPlacement.GatedEvent
