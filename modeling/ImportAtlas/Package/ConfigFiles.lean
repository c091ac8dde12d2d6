import ImportAtlas.Package.Braces

/-!
# Names of configuration files

Files of the project root, and of one directory below it, that may refer to packages. Groups of
options are expanded before a file is looked for, and an asterisk stands for any characters.
-/

namespace ImportAtlas.ConfigFiles

/-- Patterns in the order in which files are looked for. -/
def patterns : List Text :=
  List.map Text.ofString
    ["webpack.config.\x7bjs,ts\x7d", "vite.config.\x7bjs,ts\x7d", "rollup.config.\x7bjs,ts\x7d",
     "esbuild.config.\x7bjs,ts\x7d", "parcel.config.\x7bjs,json\x7d",
     "snowpack.config.\x7bjs,json\x7d", "module.config.\x7bjs,ts\x7d",
     "next.config.\x7bjs,mjs,ts\x7d", "tailwind.config.\x7bjs,ts\x7d",
     "postcss.config.\x7bjs,mjs,ts\x7d", "stylelint.config.\x7bjs,json,ts\x7d",
     "babel.config.\x7bjs,ts,json\x7d", ".babelrc.\x7bjs,json\x7d", ".babelrc",
     "jest.config.\x7bjs,ts\x7d", "vitest.config.\x7bjs,ts\x7d", "playwright.config.\x7bjs,ts\x7d",
     "cypress.config.\x7bjs,ts\x7d", "karma.conf.\x7bjs,ts\x7d", "protractor.conf.\x7bjs,ts\x7d",
     ".eslintrc.\x7bjs,json,cjs\x7d", ".eslintrc", "eslint.config.\x7bjs,mjs,ts\x7d",
     "prettier.config.\x7bjs,ts\x7d", ".prettierrc.\x7bjs,json\x7d", ".prettierrc",
     "tsconfig.json", "tsconfig.*.json", "jsconfig.json", ".storybook/*.\x7bjs,ts\x7d",
     "storybook.config.\x7bjs,ts\x7d", "astro.config.\x7bjs,ts\x7d", "svelte.config.\x7bjs,ts\x7d",
     "nuxt.config.\x7bjs,ts\x7d", "remix.config.\x7bjs,ts\x7d", "vue.config.\x7bjs,ts\x7d",
     "quasar.config.\x7bjs,ts\x7d", "capacitor.config.\x7bjs,ts,json\x7d", "ionic.config.json",
     "metro.config.\x7bjs,ts\x7d", "expo.json", "app.json", "angular.json", ".angular-cli.json",
     "workbox-config.\x7bjs,ts\x7d", "serverless.\x7byml,yaml\x7d", "pnpm-workspace.yaml",
     "lerna.json", "turbo.json", "nx.json", "workspace.json", "nodemon.json",
     "pm2.config.\x7bjs,ts\x7d", "docusaurus.config.\x7bjs,ts\x7d", "components.json"]

/-- All patterns without groups, in order. -/
def expanded : List Text :=
  patterns.flatMap Braces.expand

/-- Whether a name matches a pattern in which an asterisk stands for any characters. -/
def matchesName : Text → Text → Bool
  | [], name => name.isEmpty
  | .char '*' :: pattern, [] => matchesName pattern []
  | .char '*' :: pattern, point :: name =>
      matchesName pattern (point :: name) || matchesName (.char '*' :: pattern) name
  | expected :: pattern, point :: name => expected == point && matchesName pattern name
  | _ :: _, [] => false
termination_by pattern name => pattern.length + name.length

end ImportAtlas.ConfigFiles
