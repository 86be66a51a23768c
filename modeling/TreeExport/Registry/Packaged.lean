import TreeExport.Registry.Controls
import TreeExport.Registry.Data
import TreeExport.Registry.Feeds
import TreeExport.Registry.Layout

/-!
The registry of the components that come with the library.
-/

namespace TreeExport

namespace Registry

def packaged : Registry := ⟨[
  ("Alert", alertSource),
  ("Badge", badgeSource),
  ("Button", buttonSource),
  ("Card", cardSource),
  ("Chart", chartSource),
  ("CryptoCard", cryptoCardSource),
  ("DatePicker", datePickerSource),
  ("Divider", dividerSource),
  ("Empty", emptySource),
  ("Grid", gridSource),
  ("Heading", headingSource),
  ("List", listSource),
  ("Metric", metricSource),
  ("Select", selectSource),
  ("Stack", stackSource),
  ("Table", tableSource),
  ("Text", textSource),
  ("TrendingRepos", trendingReposSource),
  ("WeatherWidget", weatherWidgetSource)]⟩

end Registry

end TreeExport
